import Payknot.EmailRule
import Payknot.ManualAdmission

/-! The e-mail check. The candidate's e-mail is brought to a normal form in Go; a stored one is
lowered by the database from the text its document gives it, and not trimmed. So the check is
right for the documents whose e-mail both sides read alike. -/
namespace Payknot
open GoText Interleaving Machine

variable {p : Platform} {w : World} {eventID : Int64} {otherThan : Option String} {data : Option Object}

section Readings

def givenEmail (p : Platform) (data : Option Object) : Option String :=
  match lookupMap data "email" with
  | .null => none
  | _ => if normalizeEmail p data = "" then none else some (normalizeEmail p data)

def CheckoutRow.normalEmail (p : Platform) (row : CheckoutRow) : Option String :=
  match row.participantData with
  | .obj members => givenEmail p (some members)
  | _ => none

/-- What the database compares: `LOWER(COALESCE(participant_data->>'email', ''))`. -/
def CheckoutRow.loweredEmail (p : Platform) (row : CheckoutRow) : String :=
  p.lower ((p.jsonbText row.participantData "email").getD "")

/-- The paid rows of the event, but for one reference if there is one to leave out. -/
def paidOthers (w : World) (eventID : Int64) (otherThan : Option String) : List CheckoutRow :=
  w.checkouts.filter fun row =>
    row.eventId = eventID && row.isPaid && otherThan.all fun reference => row.reference ≠ reference

theorem mem_paidOthers_none {row : CheckoutRow} (among : row ∈ paidOthers w eventID otherThan) :
    row ∈ paidOthers w eventID none := by
  obtain ⟨stored, chosen⟩ := List.mem_filter.mp among
  simp only [Bool.and_eq_true] at chosen
  exact List.mem_filter.mpr ⟨stored, by simpa using chosen.1⟩

def EmailPaid (p : Platform) (rows : List CheckoutRow) (data : Option Object) : Prop :=
  ∃ email, givenEmail p data = some email ∧ ∃ row ∈ rows, row.normalEmail p = some email

/-- What `->>` gives for the e-mail of a document, and `LOWER` for no text. -/
structure ReadsEmail (p : Platform) : Prop where
  string : ∀ members text, lookup members "email" = .str text → p.jsonbText (.obj members) "email" = some text
  absent : ∀ document, (∀ members, document = .obj members → lookup members "email" = .null) →
    p.jsonbText document "email" = none
  empty : p.lower "" = ""

/-- The document gives no e-mail, or one that `->>` and `fmt.Sprint` write alike, without white
space at either end, that `LOWER` and `strings.ToLower` lower alike, and that is not the text of
an absent one. -/
def Legible (p : Platform) (document : Json) : Prop :=
  ∀ members, document = .obj members → lookup members "email" ≠ .null →
    let text := sprint p.sprintFloat (lookup members "email")
    p.jsonbText document "email" = some text ∧ trimSpace text = text ∧
      p.lower text = toLower p.lowerRune text ∧ toLower p.lowerRune text ≠ "<nil>"

theorem paidEmailRow_iff (email : String) : paidEmailRow p eventID otherThan email w.checkouts = true ↔
    ∃ row ∈ paidOthers w eventID otherThan, row.loweredEmail p = email := by
  simp only [paidEmailRow, paidOthers, List.any_eq_true, List.mem_filter, Bool.and_eq_true,
    CheckoutRow.emailIs, decide_eq_true_eq, CheckoutRow.loweredEmail, and_assoc]

/-- `unicode.ToLower` on ASCII. -/
def LowersASCII (p : Platform) : Prop := ∀ c : Char, c.toNat < 128 → p.lowerRune c = c.toLower

theorem normalizeEmail_null (ascii : LowersASCII p) (absent : lookupMap data "email" = .null) :
    normalizeEmail p data = "<nil>" := by
  have trimmed : trimSpace "<nil>" = "<nil>" := by decide +kernel
  have lowered : "<nil>".toList.map p.lowerRune = "<nil>".toList.map Char.toLower := by
    refine List.map_congr_left fun c member => ascii c ?_
    have plain : "<nil>".toList.all (fun c => decide (c.toNat < 128)) = true := by decide
    exact of_decide_eq_true (List.all_eq_true.mp plain c member)
  rw [normalizeEmail, absent, sprint, trimmed, toLower, lowered]
  decide +kernel

theorem givenEmail_some {email : String} (given : givenEmail p data = some email) :
    normalizeEmail p data = email ∧ email ≠ "" := by
  unfold givenEmail at given
  split at given
  · cases given
  · split at given
    · cases given
    · next filled =>
      have normal := Option.some.inj given
      rw [normal] at filled
      exact ⟨normal, filled⟩

theorem givenEmail_none (ascii : LowersASCII p) (absent : givenEmail p data = none) :
    normalizeEmail p data = "" ∨ normalizeEmail p data = "<nil>" := by
  unfold givenEmail at absent
  split at absent
  · next missing => exact .inr (normalizeEmail_null ascii missing)
  · split at absent
    · next blank => exact .inl blank
    · cases absent

theorem givenEmail_filled {members : Object} {email : String} (carried : lookup members "email" ≠ .null)
    (normal : normalizeEmail p (some members) = email) (filled : email ≠ "") :
    givenEmail p (some members) = some email := by
  unfold givenEmail
  split
  · next absent => exact absurd absent carried
  · rw [normal, if_neg filled]

-- Both sides read the e-mail of a legible document alike.
theorem Legible.reads (reading : ReadsEmail p) {row : CheckoutRow} (legible : Legible p row.participantData)
    {email : String} (filled : email ≠ "") :
    (row.loweredEmail p = email ↔ row.normalEmail p = some email) ∧ row.normalEmail p ≠ some "<nil>" := by
  have unread (nothing : p.jsonbText row.participantData "email" = none) : row.loweredEmail p ≠ email := by
    rw [CheckoutRow.loweredEmail, nothing, Option.getD_none, reading.empty]
    exact filled.symm
  by_cases given : ∃ members, row.participantData = .obj members ∧ lookup members "email" ≠ .null
  · obtain ⟨members, document, carried⟩ := given
    obtain ⟨stored, trimmed, lower, present⟩ := legible members document carried
    generalize written : sprint p.sprintFloat (lookup members "email") = text at stored trimmed lower present
    have lowered : row.loweredEmail p = toLower p.lowerRune text := by
      rw [CheckoutRow.loweredEmail, stored, Option.getD_some, lower]
    have normal : normalizeEmail p (some members) = toLower p.lowerRune text := by
      rw [normalizeEmail, lookupMap, written, trimmed]
    have reads : row.normalEmail p = givenEmail p (some members) := by
      rw [CheckoutRow.normalEmail, document]
    rw [lowered, reads]
    constructor
    · constructor
      · exact fun same => givenEmail_filled carried (normal.trans same) filled
      · exact fun found => normal.symm.trans (givenEmail_some found).1
    · exact fun found => present (normal.symm.trans (givenEmail_some found).1)
  · have absent : ∀ members, row.participantData = .obj members → lookup members "email" = .null :=
      fun members document => not_not.mp fun carried => given ⟨members, document, carried⟩
    have nothing : row.normalEmail p = none := by
      unfold CheckoutRow.normalEmail
      split
      · next members document => simp [givenEmail, lookupMap, absent members document]
      · rfl
    rw [nothing]
    exact ⟨iff_of_false (unread (reading.absent _ absent)) (by simp), by simp⟩

/-- A string is legible if it has no white space at its ends and both sides lower it alike. -/
theorem legible_string (reading : ReadsEmail p) {members : Object} {text : String}
    (carried : lookup members "email" = .str text) (lower : p.lower text = toLower p.lowerRune text) :
    Legible p (.obj members) ↔ trimSpace text = text ∧ toLower p.lowerRune text ≠ "<nil>" := by
  have stored := reading.string members text carried
  constructor
  · intro legible
    obtain ⟨_, trimmed, _, present⟩ := legible members rfl (by simp [carried])
    rw [carried, sprint] at trimmed present
    exact ⟨trimmed, present⟩
  · rintro ⟨trimmed, present⟩ other ⟨⟩ _
    rw [carried, sprint]
    exact ⟨stored, trimmed, lower, present⟩

-- Lowering keeps the number of characters, trimming does not if it does anything.
theorem trimmed_of_lowered {text : String}
    (same : toLower p.lowerRune text = toLower p.lowerRune (trimSpace text)) : trimSpace text = text := by
  have lengths := congrArg (fun text => text.toList.length) same
  simp only [toLower, String.toList_ofList, List.length_map] at lengths
  have inside : (trimSpace text).toList <:+: text.toList := by
    rw [trimSpace, String.toList_ofList]
    exact trimmed_part isSpace text.toList
  exact String.toList_inj.mp (inside.eq_of_length lengths.symm)

end Readings

section Check

/-- Every run of the check in this state, no statement failing, ends with its refusal. -/
def Refuses (p : Platform) (w : World) (check : Handler (Except String Unit)) : Prop :=
  check.Ensures (Sound p) (fun outcome _ => outcome = .error emailTaken) w

def emailAnswer (p : Platform) (w : World) (eventID : Int64) (otherThan : Option String)
    (data : Option Object) : Except String Unit :=
  if normalizeEmail p data ≠ "" ∧ normalizeEmail p data ≠ "<nil>" ∧
      paidEmailRow p eventID otherThan (normalizeEmail p data) w.checkouts = true then .error emailTaken
  else .ok ()

theorem ensures_checkEmail_iff {Result : Type} {post : Result → World → Prop}
    {next : Except String Unit → Handler Result} :
    (checkEmail p eventID otherThan data >>= next).Ensures (Sound p) post w ↔
      (next (emailAnswer p w eventID otherThan data)).Ensures (Sound p) post w := by
  unfold checkEmail emailAnswer
  generalize normalizeEmail p data = email
  dsimp only
  by_cases blank : email = "" ∨ email = "<nil>"
  · rw [if_pos blank]
    rcases blank with rfl | rfl
    · rfl
    · rfl
  · rw [if_neg blank, Program.bind_assoc, ensures_sql_iff]
    obtain ⟨some_text, given⟩ := not_or.mp blank
    simp only [settle, Sql.run, some_text, given, ne_eq, not_false_eq_true, true_and]
    cases paidEmailRow p eventID otherThan email w.checkouts with
    | false => rfl
    | true => rfl

theorem emailAnswer_refuses_iff :
    emailAnswer p w eventID otherThan data = .error emailTaken ↔
      normalizeEmail p data ≠ "" ∧ normalizeEmail p data ≠ "<nil>" ∧
        ∃ row ∈ paidOthers w eventID otherThan, row.loweredEmail p = normalizeEmail p data := by
  rw [← paidEmailRow_iff, emailAnswer]
  split
  · next refused => simp [refused]
  · next free => simpa using free

theorem refuses_ensure_iff :
    Refuses p w (ensureParticipantEmailAvailable p eventID data) ↔
      emailAnswer p w eventID none data = .error emailTaken := by
  have answered : (checkEmail p eventID none data >>= pure).Ensures (Sound p)
      (fun outcome _ => outcome = .error emailTaken) w ↔
        (pure (emailAnswer p w eventID none data) : Handler (Except String Unit)).Ensures (Sound p)
          (fun outcome _ => outcome = .error emailTaken) w := ensures_checkEmail_iff
  rw [Program.ensures_pure] at answered
  rw [← answered, Program.ensures_bind]
  simp only [Program.ensures_pure]
  rfl

-- No constraint's error reads like the refusal.
theorem upsert_error (checkout : PaidCheckout) {fault : Fault}
    (failed : runUpsertPaidCheckout p checkout w = .error fault) : fault.text ≠ emailTaken := by
  unfold runUpsertPaidCheckout at failed
  split at failed
  · cases failed
    decide
  · split at failed
    · cases failed
    · split at failed
      · cases failed
      · cases failed
        decide

theorem refuses_finalize_iff {reference signature : String} {invoiceData : InvoiceHash} {amount : Int64}
    (parsed : parseInt invoiceData.eventId = .ok eventID) :
    Refuses p w (finalizePaidCheckout p reference signature invoiceData amount) ↔
      emailAnswer p w eventID (some reference)
        (p.unmarshalMap (orDefault invoiceData.participantData "\x7b\x7d")) = .error emailTaken := by
  unfold Refuses finalizePaidCheckout
  rw [parsed]
  dsimp only
  rw [ensures_checkEmail_iff]
  cases emailAnswer p w eventID (some reference)
      (p.unmarshalMap (orDefault invoiceData.participantData "\x7b\x7d")) with
  | error text => simp
  | ok _ =>
      -- The e-mail is free: what can still fail are the two upserts.
      dsimp only
      rw [ensures_sql_iff]
      simp only [settle, Sql.run]
      rw [ensures_sql_iff]
      simp only [settle, Sql.run]
      cases upserted : runUpsertPaidCheckout p _ _ with
      | error fault => simp [upsert_error _ upserted]
      | ok written => simp

-- Over legible documents the check answers right for every e-mail.
theorem answer_right (ascii : LowersASCII p) (reading : ReadsEmail p)
    (legible : ∀ row ∈ paidOthers w eventID otherThan, Legible p row.participantData) :
    emailAnswer p w eventID otherThan data = .error emailTaken ↔
      EmailPaid p (paidOthers w eventID otherThan) data := by
  rw [emailAnswer_refuses_iff, EmailPaid]
  cases given : givenEmail p data with
  | none =>
      refine iff_of_false ?_ (by simp)
      rintro ⟨filled, present, _⟩
      rcases givenEmail_none ascii given with empty | missing
      · exact filled empty
      · exact present missing
  | some email =>
      obtain ⟨normal, filled⟩ := givenEmail_some given
      rw [normal]
      constructor
      · rintro ⟨_, _, row, among, lowered⟩
        exact ⟨email, rfl, row, among, ((legible row among).reads reading filled).1.mp lowered⟩
      · rintro ⟨_, ⟨⟩, row, among, reads⟩
        have both := (legible row among).reads reading filled
        refine ⟨filled, ?_, row, among, both.1.mpr reads⟩
        rintro rfl
        exact both.2 reads

/-- A lone deposit under a string that is not legible is missed under its own e-mail. -/
theorem legible_of_right (reading : ReadsEmail p) {row : CheckoutRow} {members : Object} {text : String}
    (alone : paidOthers w eventID none = [row]) (document : row.participantData = .obj members)
    (carried : lookup members "email" = .str text) (lower : p.lower text = toLower p.lowerRune text)
    (filled : toLower p.lowerRune (trimSpace text) ≠ "")
    (right : emailAnswer p w eventID none (some members) = .error emailTaken ↔
      EmailPaid p (paidOthers w eventID none) (some members)) : Legible p row.participantData := by
  have normal : normalizeEmail p (some members) = toLower p.lowerRune (trimSpace text) := by
    rw [normalizeEmail, lookupMap, carried, sprint]
  have given := givenEmail_filled (by simp [carried]) normal filled
  have own : row.normalEmail p = some (toLower p.lowerRune (trimSpace text)) := by
    rw [CheckoutRow.normalEmail, document]
    exact given
  have refused := right.mpr ⟨_, given, row, by simp [alone], own⟩
  rw [emailAnswer_refuses_iff, normal, alone] at refused
  obtain ⟨_, present, other, among, lowered⟩ := refused
  rw [List.mem_singleton.mp among, CheckoutRow.loweredEmail, document, reading.string members text carried,
    Option.getD_some, lower] at lowered
  rw [document, legible_string reading carried lower, lowered]
  exact ⟨trimmed_of_lowered lowered, present⟩

/-- The e-mail checks of session creation and of finalisation refuse exactly the e-mails that
another paid row of the event has in normal form, whatever the candidate, if the rows' documents
are legible. For a deposit that is alone in its event, under a string, they do only then. -/
theorem email_check_exact (ascii : LowersASCII p) (reading : ReadsEmail p) {invoiceData : InvoiceHash}
    (parsed : parseInt invoiceData.eventId = .ok eventID) (reference signature : String)
    (amount : Int64) (w : World) :
    (∀ data, (∀ row ∈ paidOthers w eventID none, Legible p row.participantData) →
      (Refuses p w (ensureParticipantEmailAvailable p eventID data) ↔
        EmailPaid p (paidOthers w eventID none) data)) ∧
    ((∀ row ∈ paidOthers w eventID (some reference), Legible p row.participantData) →
      (Refuses p w (finalizePaidCheckout p reference signature invoiceData amount) ↔
        EmailPaid p (paidOthers w eventID (some reference))
          (p.unmarshalMap (orDefault invoiceData.participantData "\x7b\x7d")))) ∧
    ∀ row members text, paidOthers w eventID none = [row] → row.participantData = .obj members →
      lookup members "email" = .str text → p.lower text = toLower p.lowerRune text →
      toLower p.lowerRune (trimSpace text) ≠ "" →
      ((∀ data, Refuses p w (ensureParticipantEmailAvailable p eventID data) ↔
        EmailPaid p (paidOthers w eventID none) data) ↔ Legible p row.participantData) := by
  simp only [refuses_ensure_iff, refuses_finalize_iff parsed]
  refine ⟨fun data => answer_right ascii reading, answer_right ascii reading, ?_⟩
  intro row members text alone document carried lower filled
  constructor
  · exact fun right => legible_of_right reading alone document carried lower filled (right (some members))
  · intro legible data
    refine answer_right ascii reading fun other among => ?_
    rw [alone, List.mem_singleton] at among
    rw [among]
    exact legible

end Check

section Meetup
open Mainnet

/-- The JSON text of an object with an e-mail that needs no escape. -/
def emailDocument (email : String) : String := "\x7b\"email\":\"" ++ email ++ "\"\x7d"

def readEmail (text : String) : Option Object :=
  let runes := text.toList
  if "\x7b\"email\":\"".toList <+: runes ∧ "\"\x7d".toList <:+ runes then
    some [("email", .str (String.ofList ((runes.drop 10).take (runes.length - 12))))]
  else none

def emailPlatform : Platform :=
  { platform with
    marshalMap
      | none => "null"
      | some members =>
          match lookup members "email" with
          | .str email => emailDocument email
          | _ => "\x7b\x7d"
    unmarshalMap text := some ((readEmail text).getD [])
    jsonb text :=
      match readEmail text with
      | some members => some (.obj members)
      | none =>
          if text = "\x7b\x7d" then some (.obj []) else if text = "null" then some .null else none }

theorem emailPlatform_ascii : LowersASCII emailPlatform := fun _ _ => rfl

theorem emailPlatform_reads : ReadsEmail emailPlatform where
  string members text carried := by
    change (match lookup members "email" with
      | .str value => some value
      | _ => none) = some text
    rw [carried]
  absent document nothing := by
    cases document with
    | obj members =>
        change (match lookup members "email" with
          | .str value => some value
          | _ => none) = none
        rw [nothing members rfl]
    | _ => rfl
  empty := rfl

def spells (text : String) : Json → Bool
  | .obj [("email", .str stored)] => stored = text
  | _ => false

theorem obj_of_spells {text : String} {document : Json} (spelled : spells text document = true) :
    document = .obj [("email", .str text)] := by
  unfold spells at spelled
  split at spelled
  · rw [of_decide_eq_true spelled]
  · cases spelled

/-- A deposit is stored under Ann@example.com; the check finds it under " ANN@example.com". -/
theorem email_check_exact_meetup :
    ∃ (cfg : Service) (row : CheckoutRow), (machine emailPlatform).Reaches (fun cfg label => oneAtATime cfg label = true)
        (opening [landed signature1 []]) cfg ∧ row ∈ paidOthers cfg.world 1 none ∧
      Refuses emailPlatform cfg.world
        (ensureParticipantEmailAvailable emailPlatform 1 (some [("email", .str " ANN@example.com")])) ∧
      Refuses emailPlatform cfg.world (finalizePaidCheckout emailPlatform uuid2 signatureText1
        (invoiceHash emailPlatform meetup payer "wallet" (some participant)) 1000000) := by
  obtain ⟨cfg, run, found⟩ := run_meets (machine emailPlatform) oneAtATime
    (.arrive (.manualVerify ⟨.post, some ⟨"meetup", payer, signatureText1,
      some [("email", .str "Ann@example.com")]⟩⟩) :: steps 0 6 uuid1) (opening [landed signature1 []])
    (fun cfg => (!(paidOthers cfg.world 1 (some uuid2)).isEmpty) && (paidOthers cfg.world 1 none).all fun row =>
      row.reference = uuid1 && spells "Ann@example.com" row.participantData) (by decide +kernel)
  simp only [Bool.and_eq_true, Bool.not_eq_true', List.isEmpty_eq_false_iff_exists_mem, List.all_eq_true,
    decide_eq_true_eq] at found
  obtain ⟨⟨row, among⟩, all⟩ := found
  have member := mem_paidOthers_none among
  have legible {other : CheckoutRow} (present : other ∈ paidOthers cfg.world 1 none) :
      Legible emailPlatform other.participantData := by
    have carried : lookup [("email", .str "Ann@example.com")] "email" = .str "Ann@example.com" := rfl
    rw [obj_of_spells (all other present).2, legible_string emailPlatform_reads carried rfl]
    exact ⟨by decide +kernel, by decide +kernel⟩
  have normal : row.normalEmail emailPlatform = some email := by
    rw [CheckoutRow.normalEmail, obj_of_spells (all row member).2]
    decide +kernel
  have parsed : parseInt (invoiceHash emailPlatform meetup payer "wallet" (some participant)).eventId = .ok 1 := by
    decide +kernel
  have exact_check := email_check_exact emailPlatform_ascii emailPlatform_reads parsed uuid2 signatureText1 1000000 cfg.world
  refine ⟨cfg, row, run, member, ?_, ?_⟩
  · exact (exact_check.1 (some [("email", .str " ANN@example.com")]) fun _ => legible).mpr
      ⟨email, by decide +kernel, row, member, normal⟩
  · exact (exact_check.2.1 fun _ present => legible (mem_paidOthers_none present)).mpr
      ⟨email, by decide +kernel, row, among, normal⟩

/-- A deposit stored with a blank before its e-mail is not found under that e-mail. -/
theorem padded_email_missed :
    ∃ cfg : Service, (machine emailPlatform).Reaches (fun cfg label => oneAtATime cfg label = true)
        (opening [landed signature1 []]) cfg ∧
      ¬ (Refuses emailPlatform cfg.world (ensureParticipantEmailAvailable emailPlatform 1 (some participant)) ↔
        EmailPaid emailPlatform (paidOthers cfg.world 1 none) (some participant)) := by
  obtain ⟨cfg, run, found⟩ := run_meets (machine emailPlatform) oneAtATime
    (.arrive (.manualVerify ⟨.post, some ⟨"meetup", payer, signatureText1,
      some [("email", .str (" " ++ email))]⟩⟩) :: steps 0 6 uuid1) (opening [landed signature1 []])
    (fun cfg => (emailAnswer emailPlatform cfg.world 1 none (some participant)).toBool &&
      (paidOthers cfg.world 1 none).any fun row => row.normalEmail emailPlatform = some email)
    (by decide +kernel)
  simp only [Bool.and_eq_true, List.any_eq_true, decide_eq_true_eq] at found
  obtain ⟨passes, row, among, normal⟩ := found
  have given : givenEmail emailPlatform (some participant) = some email := by decide +kernel
  refine ⟨cfg, run, fun exact_check => ?_⟩
  have refused := refuses_ensure_iff.mp (exact_check.mpr ⟨email, given, row, among, normal⟩)
  rw [refused] at passes
  cases passes

end Meetup

end Payknot
