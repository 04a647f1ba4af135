import Payknot.FormSchemas
import Payknot.Mainnet

/-! Form schemas of the legacy shape. A legacy row decodes as a field without a name, and
fields without names normalise to the default form, so the branch for the legacy shape is
never reached by the rows it was written for. -/
namespace Payknot
open GoText

def legacyName (row : Object) : String :=
  if stringMember row "id" = "" then stringMember row "label" else stringMember row "id"

def requiredFlag (row : Object) : Bool :=
  match lookup row "required" with
  | .bool flag => flag
  | _ => false

def fieldNamed (row : Object) : ParticipantField := ⟨legacyName row, requiredFlag row⟩

/-- A row {id, label, type, required}: a map without the member `field_name`, with a boolean
`required` and a string to be named by. -/
structure LegacyRow (row : Object) : Prop where
  distinct : (row.map Prod.fst).Nodup
  unnamed : ∀ member ∈ row, foldsTo member.1 "field_name" = false
  flag : ∃ flag, lookup row "required" = .bool flag
  only_flag : ∀ member ∈ row, foldsTo member.1 "required" = true → member.1 = "required"
  named : (∃ id, lookup row "id" = .str id ∧ trimSpace id ≠ "") ∨
    (lookup row "id" = .str "" ∧ ∃ label, lookup row "label" = .str label ∧ trimSpace label ≠ "")

def storedRows (rows : List Object) : Json := .arr (rows.map .obj)

section Decoding
variable {p : Platform}

theorem lookup_member {row : Object} (distinct : (row.map Prod.fst).Nodup) {member : String × Json}
    (among : member ∈ row) : lookup row member.1 = member.2 := by
  induction row with
  | nil => cases among
  | cons first rest ih =>
      rw [List.map_cons, List.nodup_cons] at distinct
      by_cases here : first.1 = member.1
      · rcases List.mem_cons.mp among with rfl | later
        · simp [lookup]
        · exact absurd (List.mem_map.mpr ⟨member, later, here.symm⟩) distinct.1
      · rcases List.mem_cons.mp among with rfl | later
        · exact absurd rfl here
        · have found := ih distinct.2 later
          simpa [lookup, here] using found

-- A member that is not the name either sets the flag or is passed over.
theorem decodeFieldMembers_unnamed {key : String} (value : Json) (rest : Object) (field : ParticipantField)
    (unnamed : foldsTo key "field_name" = false) :
    decodeFieldMembers ((key, value) :: rest) field =
      if foldsTo key "required" = true then
        match value with
        | .bool flag => decodeFieldMembers rest { field with required := flag }
        | .null => decodeFieldMembers rest field
        | _ => none
      else decodeFieldMembers rest field := by
  have passed : ¬ foldsTo key "field_name" = true := by simp [unnamed]
  change (if foldsTo key "field_name" = true then _ else _) = _
  refine (if_neg passed).trans ?_
  cases value <;> rfl

-- A legacy row decodes, as a field without a name.
theorem decodeField_legacy {row : Object} (legacy : LegacyRow row) :
    ∃ flag, decodeField (.obj row) = some ⟨"", flag⟩ := by
  obtain ⟨flag, required⟩ := legacy.flag
  have flags : ∀ member ∈ row, foldsTo member.1 "required" = true → member.2 = .bool flag := by
    intro member among folds
    have found := lookup_member legacy.distinct among
    rw [legacy.only_flag member among folds, required] at found
    exact found.symm
  have unnamed := legacy.unnamed
  have decodes (members : Object) (field : ParticipantField)
      (unnamed : ∀ member ∈ members, foldsTo member.1 "field_name" = false)
      (flags : ∀ member ∈ members, foldsTo member.1 "required" = true → member.2 = .bool flag) :
      ∃ seen, decodeFieldMembers members field = some { field with required := seen } := by
    induction members generalizing field with
    | nil => exact ⟨field.required, rfl⟩
    | cons member rest ih =>
        obtain ⟨key, value⟩ := member
        have later := fun field => ih field (fun other member => unnamed other (List.mem_cons_of_mem _ member))
          fun other member => flags other (List.mem_cons_of_mem _ member)
        have here : foldsTo key "field_name" = false := unnamed (key, value) List.mem_cons_self
        rw [decodeFieldMembers_unnamed value rest field here]
        by_cases folds : foldsTo key "required" = true
        · have is_flag : value = .bool flag := flags (key, value) List.mem_cons_self folds
          subst is_flag
          rw [if_pos folds]
          exact later _
        · rw [if_neg folds]
          exact later field
  exact decodes row ⟨"", false⟩ unnamed flags

theorem decodeDirect_legacy {rows : List Object} (legacy : ∀ row ∈ rows, LegacyRow row) :
    ∃ fields, decodeDirect (storedRows rows) = some fields ∧ ∀ field ∈ fields, field.fieldName = "" := by
  rw [storedRows, decodeDirect]
  induction rows with
  | nil => exact ⟨[], rfl, by simp⟩
  | cons row rest ih =>
      obtain ⟨flag, here⟩ := decodeField_legacy (legacy row List.mem_cons_self)
      obtain ⟨fields, later, blank⟩ := ih fun other member => legacy other (List.mem_cons_of_mem _ member)
      refine ⟨⟨"", flag⟩ :: fields, ?_, ?_⟩
      · simp [List.mapM_cons, here, later]
      · simpa using blank

theorem normalize_unnamed {fields : List ParticipantField} (blank : ∀ field ∈ fields, field.fieldName = "") :
    normalizeParticipantFields p fields = defaultParticipantForm := by
  have nothing : ∀ seen, keepFirstFields p fields seen = [] := by
    induction fields with
    | nil => exact fun _ => rfl
    | cons field rest ih =>
        intro seen
        have here : normalizeFieldName field.fieldName = "" := by
          rw [blank field List.mem_cons_self, normalizeFieldName_blank]
          rfl
        rw [keepFirstFields_cons, if_pos (.inl here)]
        exact ih (fun other member => blank other (List.mem_cons_of_mem _ member)) seen
  simp [normalizeParticipantFields, nothing]

-- Every legacy schema is read as the default form.
theorem decodeParticipantFields_legacy {rows : List Object} (legacy : ∀ row ∈ rows, LegacyRow row) :
    decodeParticipantFields p (storedRows rows) = defaultParticipantForm := by
  obtain ⟨fields, direct, blank⟩ := decodeDirect_legacy legacy
  unfold decodeParticipantFields
  rw [direct]
  dsimp only
  rw [normalize_unnamed blank, if_pos (by simp [defaultParticipantForm])]

theorem fieldNamed_named {row : Object} (legacy : LegacyRow row) : trimSpace (fieldNamed row).fieldName ≠ "" := by
  dsimp only [fieldNamed, legacyName]
  rcases legacy.named with ⟨id, is_id, left⟩ | ⟨is_id, label, is_label, left⟩
  · have given : id ≠ "" := by
      rintro rfl
      exact left rfl
    simpa [stringMember, is_id, given] using left
  · simpa [stringMember, is_id, is_label] using left

end Decoding

section Defaults
variable {p : Platform}

/-- The fields are the default form's, but for repetitions: first `name`, then `email`, both
required, and no other name. -/
def DefaultNames (p : Platform) (fields : List ParticipantField) : Prop :=
  ∃ first again second more, fields = first :: again ++ second :: more ∧
    (normalizeFieldName first.fieldName = "name" ∧ first.required = true) ∧
    (normalizeFieldName second.fieldName = "email" ∧ second.required = true) ∧
    (∀ field ∈ again, field.canonical p = first.canonical p) ∧
    ∀ field ∈ more, field.canonical p = first.canonical p ∨ field.canonical p = second.canonical p

-- The loop passes over fields whose names it has seen.
theorem keepFirstFields_seen {again rest : List ParticipantField} {seen : List String}
    (repeated : ∀ field ∈ again, field.canonical p ∈ seen) :
    keepFirstFields p (again ++ rest) seen = keepFirstFields p rest seen := by
  induction again with
  | nil => rfl
  | cons field again ih =>
      rw [List.cons_append, keepFirstFields_cons, if_pos (.inr (repeated field List.mem_cons_self))]
      exact ih fun other member => repeated other (List.mem_cons_of_mem _ member)

theorem keepFirstFields_none {fields : List ParticipantField} {seen : List String}
    (named : ∀ field ∈ fields, normalizeFieldName field.fieldName ≠ "")
    (nothing : keepFirstFields p fields seen = []) : ∀ field ∈ fields, field.canonical p ∈ seen := by
  induction fields with
  | nil => simp
  | cons field rest ih =>
      rw [keepFirstFields_cons] at nothing
      split at nothing
      · next skipped =>
        have here := skipped.resolve_left (named field List.mem_cons_self)
        have later := ih (fun other member => named other (List.mem_cons_of_mem _ member)) nothing
        intro other member
        rcases List.mem_cons.mp member with rfl | older
        · exact here
        · exact later other older
      · cases nothing

-- The first field that the loop keeps is the first one of a new name.
theorem keepFirstFields_some {fields kept : List ParticipantField} {field : ParticipantField} {seen : List String}
    (named : ∀ field ∈ fields, normalizeFieldName field.fieldName ≠ "")
    (some_kept : keepFirstFields p fields seen = field :: kept) :
    ∃ again first more, fields = again ++ first :: more ∧ (∀ other ∈ again, other.canonical p ∈ seen) ∧
      field = ⟨normalizeFieldName first.fieldName, first.required⟩ ∧
      keepFirstFields p more (first.canonical p :: seen) = kept := by
  induction fields with
  | nil => cases some_kept
  | cons first rest ih =>
      rw [keepFirstFields_cons] at some_kept
      split at some_kept
      · next skipped =>
        have here := skipped.resolve_left (named first List.mem_cons_self)
        obtain ⟨again, later, more, rfl, repeated, same, after⟩ :=
          ih (fun other member => named other (List.mem_cons_of_mem _ member)) some_kept
        refine ⟨first :: again, later, more, rfl, ?_, same, after⟩
        intro other member
        rcases List.mem_cons.mp member with rfl | older
        · exact here
        · exact repeated other older
      · obtain ⟨same, after⟩ := List.cons.inj some_kept
        exact ⟨[], first, rest, rfl, by simp, same.symm, after⟩

theorem default_names_apart : canonicalFieldName p "name" ≠ canonicalFieldName p "email" := by
  have distinct := (@defaultParticipantForm_canonical p).distinct
  simpa [defaultParticipantForm, ParticipantField.canonical] using distinct

theorem normalize_default_iff {fields : List ParticipantField} (some_field : fields ≠ [])
    (named : ∀ field ∈ fields, trimSpace field.fieldName ≠ "") :
    normalizeParticipantFields p fields = defaultParticipantForm ↔ DefaultNames p fields := by
  have renamed : ∀ field ∈ fields, normalizeFieldName field.fieldName ≠ "" := fun field member blank =>
    named field member ((normalizeFieldName_blank _).mp blank)
  obtain ⟨one, among⟩ := List.exists_mem_of_ne_nil fields some_field
  rw [normalizeParticipantFields_named ⟨one, among, named one among⟩, defaultParticipantForm]
  constructor
  · intro kept
    obtain ⟨again, first, rest, rfl, repeated, is_name, left⟩ := keepFirstFields_some renamed kept
    cases again with
    | cons other again => exact absurd (repeated other List.mem_cons_self) List.not_mem_nil
    | nil =>
        have renamed : ∀ field ∈ rest, normalizeFieldName field.fieldName ≠ "" := fun field member =>
          renamed field (List.mem_cons_of_mem _ member)
        obtain ⟨again, second, more, rfl, repeated, is_email, nothing⟩ := keepFirstFields_some renamed left
        have others := keepFirstFields_none (fun field member =>
          renamed field (List.mem_append_right _ (List.mem_cons_of_mem _ member))) nothing
        obtain ⟨named_name, required⟩ := ParticipantField.mk.inj is_name
        obtain ⟨named_email, required'⟩ := ParticipantField.mk.inj is_email
        refine ⟨first, again, second, more, rfl, ⟨named_name.symm, required.symm⟩,
          ⟨named_email.symm, required'.symm⟩, ?_, ?_⟩
        · simpa using repeated
        · intro field member
          simpa [or_comm] using others field member
  · rintro ⟨first, again, second, more, rfl, ⟨is_name, required⟩, ⟨is_email, required'⟩, repeated, others⟩
    have first_is : first.canonical p = canonicalFieldName p "name" := by
      rw [ParticipantField.canonical, ← canonicalFieldName_normalizeFieldName, is_name]
    have second_is : second.canonical p = canonicalFieldName p "email" := by
      rw [ParticipantField.canonical, ← canonicalFieldName_normalizeFieldName, is_email]
    have fresh : second.canonical p ∉ [first.canonical p] := by
      rw [List.mem_singleton, first_is, second_is]
      exact Ne.symm default_names_apart
    have after : keepFirstFields p more [second.canonical p, first.canonical p] = [] := by
      have repeated : ∀ field ∈ more, field.canonical p ∈ [second.canonical p, first.canonical p] := by
        intro field member
        simpa [or_comm] using others field member
      have skipped := @keepFirstFields_seen p more [] _ repeated
      rwa [List.append_nil] at skipped
    have kept_second : keepFirstFields p (second :: more) [first.canonical p] = [⟨"email", true⟩] := by
      rw [keepFirstFields_cons, if_neg (by simpa [is_email] using fresh), after, is_email, required']
    rw [List.cons_append, keepFirstFields_cons, if_neg (by simp [is_name]),
      keepFirstFields_seen (by simpa using repeated), kept_second, is_name, required]

end Defaults

/-- A legacy schema keeps its fields exactly when they are the default form's anyway. -/
theorem legacy_schema_kept_iff (p : Platform) {rows : List Object} (some_row : rows ≠ [])
    (legacy : ∀ row ∈ rows, LegacyRow row) :
    decodeParticipantFields p (storedRows rows) = normalizeParticipantFields p (rows.map fieldNamed) ↔
      DefaultNames p (rows.map fieldNamed) := by
  have named : ∀ field ∈ rows.map fieldNamed, trimSpace field.fieldName ≠ "" := by
    intro field member
    obtain ⟨row, among, rfl⟩ := List.mem_map.mp member
    exact fieldNamed_named (legacy row among)
  rw [decodeParticipantFields_legacy legacy, eq_comm]
  exact normalize_default_iff (by simpa using some_row) named

section Meetup
open Mainnet

def legacyText (id label type : String) : Object :=
  [("id", .str id), ("label", .str label), ("type", .str type), ("required", .bool true)]

theorem legacyText_legacy {id : String} (label type : String) (left : trimSpace id ≠ "") :
    LegacyRow (legacyText id label type) := by
  have keys : ∀ member ∈ legacyText id label type,
      member.1 = "id" ∨ member.1 = "label" ∨ member.1 = "type" ∨ member.1 = "required" := by
    simp [legacyText]
  have unnamed : foldsTo "id" "field_name" = false ∧ foldsTo "label" "field_name" = false ∧
      foldsTo "type" "field_name" = false ∧ foldsTo "required" "field_name" = false := by decide
  have flagged : foldsTo "id" "required" = false ∧ foldsTo "label" "required" = false ∧
      foldsTo "type" "required" = false := by decide
  have distinct : ["id", "label", "type", "required"].Nodup := by decide
  refine ⟨distinct, ?_, ⟨true, rfl⟩, ?_, .inl ⟨id, rfl, left⟩⟩
  · intro member among
    rcases keys member among with key | key | key | key <;> simp [key, unnamed]
  · intro member among folds
    rcases keys member among with key | key | key | key <;> simp_all

def migratedRows : List Object := [legacyText "name" "Name" "text", legacyText "email" "Email" "email"]

theorem migratedRows_legacy : ∀ row ∈ migratedRows, LegacyRow row := by
  have named : trimSpace "name" ≠ "" ∧ trimSpace "email" ≠ "" := by decide +kernel
  intro row member
  simp only [migratedRows, List.mem_cons, List.not_mem_nil, or_false] at member
  rcases member with rfl | rfl
  · exact legacyText_legacy _ _ named.1
  · exact legacyText_legacy _ _ named.2

theorem legacy_schema_kept_meetup :
    decodeParticipantFields platform (storedRows migratedRows) =
        normalizeParticipantFields platform (migratedRows.map fieldNamed) ↔
      DefaultNames platform (migratedRows.map fieldNamed) :=
  legacy_schema_kept_iff platform (by simp [migratedRows]) migratedRows_legacy

/-- A legacy schema that asks for the company is read as one that asks for name and e-mail. -/
theorem legacy_company_lost :
    LegacyRow (legacyText "company" "Company" "text") ∧
      decodeParticipantFields platform (storedRows [legacyText "company" "Company" "text"]) ≠
        normalizeParticipantFields platform ([legacyText "company" "Company" "text"].map fieldNamed) := by
  have named : trimSpace "company" ≠ "" := by decide +kernel
  have legacy := legacyText_legacy "Company" "text" named
  refine ⟨legacy, ?_⟩
  rw [decodeParticipantFields_legacy (by simpa using legacy)]
  intro same
  have names := congrArg (List.map (·.fieldName)) same
  revert names
  decide +kernel

end Meetup
end Payknot
