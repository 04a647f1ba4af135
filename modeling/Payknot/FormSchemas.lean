import Payknot.ParticipantFields

/-! Form schemas. The loop of `normalizeParticipantFields` keeps the first field of each
canonical name; what it returns passes a second time, and through storage, unchanged. -/
namespace Payknot
open GoText

section Names

theorem normalizeFieldName_toList (name : String) :
    (normalizeFieldName name).toList = [' '].intercalate (fieldRunes (trimSpace name).toList []) := by
  rw [normalizeFieldName, String.toList_intercalate, fields, List.map_map]
  simp

theorem words_of_name (name : String) : ∀ word ∈ fieldRunes (trimSpace name).toList [], IsWord word :=
  isWord_fieldRunes (by simp)

-- Joined words have no white space at their ends.
theorem trimRunes_join {words : List (List Char)} (all : ∀ word ∈ words, IsWord word) :
    trimRunes ([' '].intercalate words) = [' '].intercalate words := by
  apply trimmed_self
  · intro c head
    cases words with
    | nil => cases head
    | cons word rest =>
        have first := all word List.mem_cons_self
        have extends_to : word <+: [' '].intercalate (word :: rest) := by
          cases rest with
          | nil => simp
          | cons next rest =>
              rw [List.intercalate_cons_cons, List.append_assoc]
              exact List.prefix_append _ _
        obtain ⟨more, whole⟩ := extends_to
        rw [← whole, List.head?_append_of_ne_nil _ first.some_rune] at head
        exact first.solid c (List.mem_of_mem_head? head)
  · intro c last
    induction words with
    | nil => cases last
    | cons word rest ih =>
        have first := all word List.mem_cons_self
        cases rest with
        | nil =>
            rw [List.intercalate_singleton] at last
            exact first.solid c (List.mem_of_mem_getLast? last)
        | cons next rest =>
            have later := all next (by simp)
            have some_left : [' '].intercalate (next :: rest) ≠ [] := by
              cases rest with
              | nil => simpa using later.some_rune
              | cons _ _ => simp [List.intercalate_cons_cons]
            rw [List.intercalate_cons_cons, List.append_assoc, List.getLast?_append_of_ne_nil _ (by simp),
              List.getLast?_append_of_ne_nil _ some_left] at last
            exact ih (fun other member => all other (List.mem_cons_of_mem _ member)) last

theorem trimSpace_normalizeFieldName (name : String) :
    trimSpace (normalizeFieldName name) = normalizeFieldName name := by
  rw [trimSpace, normalizeFieldName_toList, trimRunes_join (words_of_name name), ← normalizeFieldName_toList,
    String.ofList_toList]

@[simp] theorem normalizeFieldName_normalizeFieldName (name : String) :
    normalizeFieldName (normalizeFieldName name) = normalizeFieldName name := by
  apply String.toList_injective
  rw [normalizeFieldName_toList (normalizeFieldName name), trimSpace_normalizeFieldName,
    normalizeFieldName_toList name, fieldRunes_join (words_of_name name)]

theorem fieldRunes_nil_iff (text word : List Char) :
    fieldRunes text word = [] ↔ word = [] ∧ ∀ c ∈ text, isSpace c = true := by
  induction text generalizing word with
  | nil => cases word <;> simp [fieldRunes]
  | cons c rest ih =>
      rw [fieldRunes]
      split
      · next space =>
        split
        · next empty =>
          rw [ih]
          simpa [space] using fun _ => empty
        · next left =>
          simp only [List.isEmpty_iff] at left
          simp [left]
      · next solid =>
        rw [ih]
        simp [solid]

-- A name is normalised to nothing exactly when it is blank.
theorem normalizeFieldName_blank (name : String) : normalizeFieldName name = "" ↔ trimSpace name = "" := by
  rw [← String.toList_inj, normalizeFieldName_toList]
  constructor
  · intro nothing
    have no_words : fieldRunes (trimSpace name).toList [] = [] := by
      cases words : fieldRunes (trimSpace name).toList [] with
      | nil => rfl
      | cons word rest =>
          have first := words_of_name name word (by rw [words]; exact List.mem_cons_self)
          rw [words] at nothing
          cases rest with
          | nil => exact absurd (by simpa using nothing) first.some_rune
          | cons _ _ => simp [List.intercalate_cons_cons] at nothing
    have spaces := ((fieldRunes_nil_iff _ _).mp no_words).2
    by_contra some_text
    have left : (trimSpace name).toList ≠ [] := by
      rwa [Ne, ← String.toList_empty, String.toList_inj]
    have head := List.head?_eq_some_head left
    have solid : isSpace ((trimSpace name).toList.head left) = false := by
      have of_trimmed : (trimSpace name).toList.head left ∈
          ((name.toList.dropWhile isSpace).rdropWhile isSpace).head? := by
        simpa [trimSpace, trimRunes] using head
      exact trimmed_head of_trimmed
    rw [spaces _ (List.head_mem left)] at solid
    cases solid
  · intro blank
    rw [blank]
    rfl

theorem canonicalFieldName_eq (p : Platform) (name : String) :
    canonicalFieldName p name = toLower p.lowerRune (normalizeFieldName name) := rfl

@[simp] theorem canonicalFieldName_normalizeFieldName (p : Platform) (name : String) :
    canonicalFieldName p (normalizeFieldName name) = canonicalFieldName p name := by
  rw [canonicalFieldName_eq, canonicalFieldName_eq, normalizeFieldName_normalizeFieldName]

end Names

section Forms
variable {p : Platform}

def namedFields (fields : List ParticipantField) : List ParticipantField :=
  (fields.filter fun field => normalizeFieldName field.fieldName ≠ "").map
    fun field => ⟨normalizeFieldName field.fieldName, field.required⟩

def ParticipantField.canonical (p : Platform) (field : ParticipantField) : String :=
  canonicalFieldName p field.fieldName

def ProperName (field : ParticipantField) : Prop :=
  normalizeFieldName field.fieldName = field.fieldName ∧ trimSpace field.fieldName ≠ ""

/-- No two fields whose names differ in case and white space only. -/
structure CanonicalForm (p : Platform) (form : List ParticipantField) : Prop where
  proper : ∀ field ∈ form, ProperName field
  distinct : (form.map (·.canonical p)).Nodup

theorem canonical_named (field : ParticipantField) :
    ParticipantField.canonical p ⟨normalizeFieldName field.fieldName, field.required⟩ = field.canonical p := by
  dsimp only [ParticipantField.canonical]
  exact canonicalFieldName_normalizeFieldName p field.fieldName

theorem keepFirstFields_cons (field : ParticipantField) (rest : List ParticipantField) (seen : List String) :
    keepFirstFields p (field :: rest) seen =
      if normalizeFieldName field.fieldName = "" ∨ field.canonical p ∈ seen then keepFirstFields p rest seen
      else ⟨normalizeFieldName field.fieldName, field.required⟩ ::
        keepFirstFields p rest (field.canonical p :: seen) := by
  rw [keepFirstFields]
  by_cases blank : normalizeFieldName field.fieldName = ""
  · simp [blank]
  · simp [blank, ParticipantField.canonical]

theorem namedFields_cons (field : ParticipantField) (rest : List ParticipantField) :
    namedFields (field :: rest) = if normalizeFieldName field.fieldName = "" then namedFields rest
      else ⟨normalizeFieldName field.fieldName, field.required⟩ :: namedFields rest := by
  by_cases blank : normalizeFieldName field.fieldName = ""
  · simp [namedFields, blank]
  · simp [namedFields, blank]

-- The loop keeps a part of the named fields in their order.
theorem keepFirstFields_sublist (fields : List ParticipantField) (seen : List String) :
    (keepFirstFields p fields seen).Sublist (namedFields fields) := by
  induction fields generalizing seen with
  | nil => exact List.Sublist.slnil
  | cons field rest ih =>
      rw [keepFirstFields_cons, namedFields_cons]
      by_cases blank : normalizeFieldName field.fieldName = ""
      · rw [if_pos (.inl blank), if_pos blank]
        exact ih seen
      · rw [if_neg blank]
        split
        · exact (ih seen).cons _
        · exact (ih _).cons_cons _

theorem namedFields_proper {fields : List ParticipantField} {field : ParticipantField}
    (member : field ∈ namedFields fields) : ProperName field := by
  obtain ⟨old, among, same⟩ := List.mem_map.mp member
  have left : normalizeFieldName old.fieldName ≠ "" := by
    simpa using (List.mem_filter.mp among).2
  subst same
  dsimp only [ProperName]
  rw [normalizeFieldName_normalizeFieldName, trimSpace_normalizeFieldName]
  exact ⟨rfl, left⟩

-- Of each canonical name not seen before it keeps the first field, and no other.
theorem keepFirstFields_first (fields : List ParticipantField) (seen : List String) (name : String) :
    (keepFirstFields p fields seen).find? (·.canonical p = name) =
      if name ∈ seen then none else (namedFields fields).find? (·.canonical p = name) := by
  induction fields generalizing seen with
  | nil => simp [keepFirstFields, namedFields]
  | cons field rest ih =>
      rw [keepFirstFields_cons, namedFields_cons]
      have renamed := canonical_named (p := p) field
      by_cases blank : normalizeFieldName field.fieldName = ""
      · rw [if_pos (.inl blank), if_pos blank]
        exact ih seen
      · rw [if_neg blank]
        by_cases repeated : field.canonical p ∈ seen
        · rw [if_pos (.inr repeated), ih]
          by_cases old : name ∈ seen
          · rw [if_pos old, if_pos old]
          · have other : field.canonical p ≠ name := by
              rintro rfl
              exact old repeated
            rw [if_neg old, if_neg old, List.find?_cons_of_neg (by simpa [renamed] using other)]
        · rw [if_neg (by simp [blank, repeated])]
          by_cases here : field.canonical p = name
          · rw [List.find?_cons_of_pos (by simpa [renamed] using here),
              List.find?_cons_of_pos (by simpa [renamed] using here), if_neg (by rwa [← here])]
          · rw [List.find?_cons_of_neg (by simpa [renamed] using here),
              List.find?_cons_of_neg (by simpa [renamed] using here), ih]
            simp [Ne.symm here]

theorem keepFirstFields_distinct (fields : List ParticipantField) (seen : List String) :
    ((keepFirstFields p fields seen).map (·.canonical p)).Nodup ∧
      ∀ field ∈ keepFirstFields p fields seen, field.canonical p ∉ seen := by
  induction fields generalizing seen with
  | nil => simp [keepFirstFields]
  | cons field rest ih =>
      rw [keepFirstFields_cons]
      have renamed := canonical_named (p := p) field
      split
      · exact ih seen
      · next fresh =>
        obtain ⟨distinct, unseen⟩ := ih (field.canonical p :: seen)
        constructor
        · rw [List.map_cons, List.nodup_cons, renamed]
          refine ⟨fun repeated => ?_, distinct⟩
          obtain ⟨other, member, same⟩ := List.mem_map.mp repeated
          exact unseen other member (by simp [same])
        · intro other member
          rcases List.mem_cons.mp member with rfl | later
          · rw [renamed]
            exact fun old => fresh (.inr old)
          · exact fun old => unseen other later (List.mem_cons_of_mem _ old)

-- A form in canonical shape passes the loop whole.
theorem keepFirstFields_self {form : List ParticipantField} {seen : List String} (canonical : CanonicalForm p form)
    (unseen : ∀ field ∈ form, field.canonical p ∉ seen) : keepFirstFields p form seen = form := by
  induction form generalizing seen with
  | nil => rfl
  | cons field rest ih =>
      obtain ⟨normal, left⟩ := canonical.proper field List.mem_cons_self
      have distinct := canonical.distinct
      rw [List.map_cons, List.nodup_cons] at distinct
      have rest_canonical : CanonicalForm p rest :=
        ⟨fun other member => canonical.proper other (List.mem_cons_of_mem _ member), distinct.2⟩
      have later : ∀ other ∈ rest, other.canonical p ∉ field.canonical p :: seen := by
        intro other member repeated
        rcases List.mem_cons.mp repeated with same | old
        · exact distinct.1 (List.mem_map.mpr ⟨other, member, same⟩)
        · exact unseen other (List.mem_cons_of_mem _ member) old
      have named : normalizeFieldName field.fieldName ≠ "" := fun blank =>
        left ((normalizeFieldName_blank _).mp blank)
      rw [keepFirstFields_cons, if_neg (by simp [named, unseen field List.mem_cons_self]), ih rest_canonical later,
        normal]

theorem keepFirstFields_canonical (fields : List ParticipantField) :
    CanonicalForm p (keepFirstFields p fields []) :=
  ⟨fun _ member => namedFields_proper ((keepFirstFields_sublist fields []).subset member),
    (keepFirstFields_distinct fields []).1⟩

-- The default form is canonical whatever lower-casing does: it keeps lengths.
theorem defaultParticipantForm_canonical : CanonicalForm p defaultParticipantForm := by
  constructor
  · intro field member
    have checked : ∀ field ∈ defaultParticipantForm,
        normalizeFieldName field.fieldName = field.fieldName ∧ trimSpace field.fieldName ≠ "" := by decide +kernel
    exact checked field member
  · have names : normalizeFieldName "name" = "name" ∧ normalizeFieldName "email" = "email" := by decide +kernel
    have apart : canonicalFieldName p "name" ≠ canonicalFieldName p "email" := by
      intro same
      have lengths := congrArg (fun text => text.toList.length) same
      simp [canonicalFieldName_eq, names.1, names.2, toLower] at lengths
    simp [defaultParticipantForm, ParticipantField.canonical, apart]

theorem normalizeParticipantFields_canonical (fields : List ParticipantField) :
    normalizeParticipantFields p fields ≠ [] ∧ CanonicalForm p (normalizeParticipantFields p fields) := by
  unfold normalizeParticipantFields
  split
  · exact ⟨by simp [defaultParticipantForm], defaultParticipantForm_canonical⟩
  · dsimp only
    split
    · exact ⟨by simp [defaultParticipantForm], defaultParticipantForm_canonical⟩
    · next left => exact ⟨by simpa using left, keepFirstFields_canonical fields⟩

theorem normalizeParticipantFields_self {form : List ParticipantField} (left : form ≠ [])
    (canonical : CanonicalForm p form) : normalizeParticipantFields p form = form := by
  unfold normalizeParticipantFields
  rw [keepFirstFields_self canonical (by simp), if_neg (by simpa using left), if_neg (by simpa using left)]

-- With a name among its fields a form is what the loop keeps.
theorem normalizeParticipantFields_named {fields : List ParticipantField}
    (named : ∃ field ∈ fields, trimSpace field.fieldName ≠ "") :
    normalizeParticipantFields p fields = keepFirstFields p fields [] := by
  obtain ⟨field, member, left⟩ := named
  have renamed : normalizeFieldName field.fieldName ≠ "" := fun blank =>
    left ((normalizeFieldName_blank _).mp blank)
  have kept : keepFirstFields p fields [] ≠ [] := by
    intro nothing
    have first := keepFirstFields_first (p := p) fields [] (field.canonical p)
    rw [nothing, if_neg List.not_mem_nil] at first
    have listed : (⟨normalizeFieldName field.fieldName, field.required⟩ : ParticipantField) ∈ namedFields fields :=
      List.mem_map.mpr ⟨field, List.mem_filter.mpr ⟨member, by simpa using renamed⟩, rfl⟩
    have missing := List.find?_eq_none.mp first.symm _ listed
    simp [ParticipantField.canonical] at missing
  have some_field : fields.isEmpty = false := by
    rw [List.isEmpty_eq_false_iff]
    exact List.ne_nil_of_mem member
  simp [normalizeParticipantFields, some_field, kept]

theorem decodeField_encoded (field : ParticipantField) :
    decodeField (.obj [("required", .bool field.required), ("field_name", .str field.fieldName)]) =
      some field := by
  obtain ⟨name, required⟩ := field
  rfl

theorem decodeDirect_encoded (form : List ParticipantField) :
    decodeDirect (encodeParticipantFields form) = some form := by
  rw [encodeParticipantFields, decodeDirect]
  induction form with
  | nil => rfl
  | cons field rest ih => simp [List.mapM_cons, decodeField_encoded, ih]

theorem decodeParticipantFields_encoded {form : List ParticipantField} (left : form ≠ [])
    (canonical : CanonicalForm p form) : decodeParticipantFields p (encodeParticipantFields form) = form := by
  unfold decodeParticipantFields
  rw [decodeDirect_encoded]
  dsimp only
  rw [normalizeParticipantFields_self left canonical, if_pos (List.length_pos_iff.mpr left)]

/-- A normalised form is canonical, keeps the first field of each name as it was given, and
comes back unchanged from a second pass and from storage. -/
theorem form_canonical (p : Platform) (fields : List ParticipantField) :
    let form := normalizeParticipantFields p fields
    form ≠ [] ∧ CanonicalForm p form ∧
      ((∃ field ∈ fields, trimSpace field.fieldName ≠ "") → form.Sublist (namedFields fields) ∧
        ∀ name, form.find? (·.canonical p = name) = (namedFields fields).find? (·.canonical p = name)) ∧
      normalizeParticipantFields p form = form ∧
      decodeParticipantFields p (encodeParticipantFields form) = form := by
  obtain ⟨left, canonical⟩ := normalizeParticipantFields_canonical (p := p) fields
  refine ⟨left, canonical, fun named => ?_, normalizeParticipantFields_self left canonical,
    decodeParticipantFields_encoded left canonical⟩
  rw [normalizeParticipantFields_named named]
  refine ⟨keepFirstFields_sublist fields [], fun name => ?_⟩
  rw [keepFirstFields_first, if_neg List.not_mem_nil]

end Forms

end Payknot
