import Payknot.Admission
import Payknot.LedgerWrites

/-! Manual verification. It records a deposit for an event and a participant without a session,
and makes none of the checks that creating one makes; so they would have passed just when the
state and the request happen to be such. -/
namespace Payknot
open GoText Interleaving Machine

section Passing
variable {p : Platform} {w : World} {event : EventRow} {data : Option Object}

/-- Run in this state, the checks of session creation let the event and the data pass. -/
def ChecksPass (p : Platform) (w : World) (event : EventRow) (data : Option Object) : Prop :=
  (eventChecks p event data).Ensures (Sound p) (fun outcome _ => outcome = .ok ()) w

def fieldText (p : Platform) (data : Option Object) (field : ParticipantField) : String :=
  trimSpace (sprint p.sprintFloat (lookupMap data field.fieldName))

/-- The checkout is open, every required field is filled in, and nobody has paid with the e-mail. -/
structure Admissible (p : Platform) (w : World) (event : EventRow) (data : Option Object) : Prop where
  open_until : w.now ≤ event.columns.checkoutExpiresAt
  filled : ∀ field ∈ decodeParticipantFields p event.columns.participantFormSchema, field.required = true →
    fieldText p data field ≠ "" ∧ fieldText p data field ≠ "<nil>"
  unpaid : normalizeEmail p data = "" ∨ normalizeEmail p data = "<nil>" ∨
    ∀ row ∈ w.checkouts, row.eventId = event.id → row.status = .paid →
      row.emailIs p (normalizeEmail p data) = false

theorem validateParticipantData_iff (fields : List ParticipantField) :
    validateParticipantData p fields data = .ok () ↔ ∀ field ∈ fields, field.required = true →
      fieldText p data field ≠ "" ∧ fieldText p data field ≠ "<nil>" := by
  induction fields with
  | nil => simp [validateParticipantData]
  | cons field rest ih =>
      rw [validateParticipantData, List.forall_mem_cons, ← ih]
      cases required : field.required with
      | false => simp
      | true =>
          simp only [Bool.not_true, Bool.false_eq_true, if_false, forall_const]
          change (if fieldText p data field = "" ∨ fieldText p data field = "<nil>" then _ else _) = _ ↔ _
          split
          · next blank =>
            constructor
            · nofun
            · rintro ⟨⟨filled, given⟩, _⟩
              exact absurd blank (by simp [filled, given])
          · next given => simp [not_or.mp given]

theorem paidEmailRow_none_iff (eventID : Int64) (email : String) :
    paidEmailRow p eventID none email w.checkouts = false ↔
      ∀ row ∈ w.checkouts, row.eventId = eventID → row.status = .paid → row.emailIs p email = false := by
  rw [paidEmailRow, List.any_eq_false]
  refine forall_congr' fun row => imp_congr_right fun _ => ?_
  simp [CheckoutRow.isPaid]

theorem available_iff (eventID : Int64) :
    (ensureParticipantEmailAvailable p eventID data).Ensures (Sound p) (fun free _ => free = .ok ()) w ↔
      normalizeEmail p data = "" ∨ normalizeEmail p data = "<nil>" ∨
        paidEmailRow p eventID none (normalizeEmail p data) w.checkouts = false := by
  unfold ensureParticipantEmailAvailable checkEmail
  generalize normalizeEmail p data = email
  dsimp only
  by_cases blank : email = "" ∨ email = "<nil>"
  · rw [if_pos blank, Program.ensures_pure]
    simp only [true_iff]
    rcases blank with empty | missing
    · exact .inl empty
    · exact .inr (.inl missing)
  · rw [if_neg blank, ensures_sql_iff]
    obtain ⟨some_text, given⟩ := not_or.mp blank
    simp only [settle, Sql.run, some_text, given, false_or]
    cases paidEmailRow p eventID none email w.checkouts with
    | false => simp
    | true => simp

-- The checks pass in just the states and for just the data that are admissible.
theorem checksPass_iff : ChecksPass p w event data ↔ Admissible p w event data := by
  unfold ChecksPass eventChecks
  rw [ensures_timeNow_iff]
  by_cases expired : event.columns.checkoutExpiresAt < w.now
  · rw [if_pos expired, Program.ensures_pure]
    constructor
    · nofun
    · intro admissible
      exact absurd expired (not_lt.mpr admissible.open_until)
  · rw [if_neg expired]
    have valid : validateParticipantData p _ data = .ok () ↔ _ :=
      validateParticipantData_iff (decodeParticipantFields p event.columns.participantFormSchema)
    cases checked : validateParticipantData p
        (decodeParticipantFields p event.columns.participantFormSchema) data with
    | error text =>
        dsimp only
        rw [Program.ensures_pure]
        constructor
        · nofun
        · intro admissible
          rw [valid.mpr admissible.filled] at checked
          cases checked
    | ok _ =>
        dsimp only
        have filled := valid.mp checked
        have unpaid : (ensureParticipantEmailAvailable p event.id data).Ensures (Sound p)
            (fun free _ => free = .ok ()) w ↔ Admissible p w event data := by
          rw [available_iff, paidEmailRow_none_iff]
          exact ⟨fun unpaid => ⟨not_lt.mp expired, filled, unpaid⟩, fun admissible => admissible.unpaid⟩
        rw [Program.ensures_bind, ← unpaid]
        -- Nothing is refused after the e-mail.
        refine iff_of_eq (congrArg (fun post => Program.Ensures (Sound p) post _ w) ?_)
        funext free middle
        cases free with
        | error text => simp
        | ok _ => simp

end Passing

section Manual
variable {p : Platform} {init cfg after : Service} {label : ServiceLabel}

/-- When a manual verification records a deposit, in any run, the checks of session creation
would pass exactly in the admissible states: it makes none of them itself. -/
theorem manual_admission_iff (start : init.threads = [])
    (run : (machine p).Reaches (fun _ _ => True) init cfg) {index : Nat} {thread : ServiceThread}
    {checkout : PaidCheckout}
    (records : Performs cfg label index thread (.sql (.insertPaidCheckout checkout))) :
    ∃ req, thread.request = .manualVerify ⟨.post, some req⟩ ∧
      checkout.participantData = p.marshalMap req.participant ∧
      ∀ event ∈ cfg.world.events, event.id = checkout.eventId →
        (ChecksPass p cfg.world event req.participant ↔ Admissible p cfg.world event req.participant) := by
  have held : Disciplined (RecordsGiven p) (fun _ _ _ => True) cfg :=
    run.disciplined given_handler (by simp [Disciplined, start])
  obtain ⟨_, req, request, _, data⟩ := held.issues (List.mem_of_getElem? records.2.1) records.2.2
  exact ⟨req, request, data, fun _ _ _ => checksPass_iff⟩

section Meetup
open Mainnet

/-- The first request is about to record a checkout of this event. -/
def recording (eventID : Int64) (cfg : Service) : Bool :=
  cfg.threads[0]?.any fun thread =>
    match thread.program with
    | .call (.sql (.insertPaidCheckout checkout)) _ => checkout.eventId = eventID
    | _ => false

theorem performs_of_recording {eventID : Int64} (records : recording eventID cfg = true) :
    ∃ thread checkout, checkout.eventId = eventID ∧ Performs cfg (.step 0 ⟨none, ""⟩ : ServiceLabel) 0 thread
      (.sql (.insertPaidCheckout checkout)) := by
  rw [recording, Option.any_eq_true] at records
  obtain ⟨thread, found, records⟩ := records
  split at records
  · next checkout rest program =>
    exact ⟨thread, checkout, by simpa using records, ⟨_, rfl⟩, found, rest, program⟩
  · cases records

theorem manual_recording (participant : Option Object) (check : Service → Bool)
    (runs : ((machine platform).run (fun _ _ => true) (.arrive
      (.manualVerify ⟨.post, some ⟨"meetup", payer, signatureText1, participant⟩⟩) :: steps 0 5 uuid1)
      (opening [landed signature1 []])).any (fun cfg => recording 1 cfg && check cfg) = true) :
    ∃ cfg : Service, (machine platform).Reaches (fun _ _ => True) (opening [landed signature1 []]) cfg ∧
      (∃ thread checkout, checkout.eventId = 1 ∧ Performs cfg (.step 0 ⟨none, ""⟩ : ServiceLabel) 0 thread
        (.sql (.insertPaidCheckout checkout))) ∧ check cfg = true := by
  obtain ⟨cfg, run, found⟩ := run_meets (machine platform) (fun _ _ => true) _ _ _ runs
  rw [Bool.and_eq_true] at found
  exact ⟨cfg, run.mono fun _ _ _ => trivial, performs_of_recording found.1, found.2⟩

theorem manual_admission_iff_meetup :
    ∃ cfg : Service, ∃ thread checkout, Performs cfg (.step 0 ⟨none, ""⟩ : ServiceLabel) 0 thread
        (.sql (.insertPaidCheckout checkout)) ∧
      ∃ req, thread.request = .manualVerify ⟨.post, some req⟩ ∧
        checkout.participantData = platform.marshalMap req.participant ∧
        ∀ event ∈ cfg.world.events, event.id = checkout.eventId →
          (ChecksPass platform cfg.world event req.participant ↔
            Admissible platform cfg.world event req.participant) := by
  obtain ⟨cfg, run, ⟨thread, checkout, _, records⟩, _⟩ :=
    manual_recording (some participant) (fun _ => true) (by decide +kernel)
  exact ⟨cfg, thread, checkout, records, manual_admission_iff rfl run records⟩

/-- The meetup's form requires an e-mail; manual verification records a deposit without one. -/
theorem manual_without_email :
    ∃ cfg after : Service, ∃ thread checkout,
      (machine platform).Reaches (fun _ _ => True) (opening [landed signature1 []]) cfg ∧
      Performs cfg (.step 0 ⟨none, ""⟩ : ServiceLabel) 0 thread (.sql (.insertPaidCheckout checkout)) ∧
      (machine platform).next cfg (.step 0 ⟨none, ""⟩) = some after ∧
      (∃ row ∈ after.world.checkouts, row.status = .paid ∧ row.eventId = checkout.eventId) ∧
      ∃ event ∈ cfg.world.events, event.id = checkout.eventId ∧ ¬ ChecksPass platform cfg.world event none := by
  obtain ⟨cfg, run, ⟨thread, checkout, eventId, records⟩, found⟩ := manual_recording none (fun cfg =>
    (cfg.world.events.any fun event => event.id = 1 && (validateParticipantData platform
      (decodeParticipantFields platform event.columns.participantFormSchema) none).toBool = false) &&
    ((machine platform).next cfg (.step 0 ⟨none, ""⟩)).any fun after => after.world.checkouts.any fun row =>
      row.isPaid && row.eventId = 1) (by decide +kernel)
  simp only [Bool.and_eq_true, List.any_eq_true, Option.any_eq_true, CheckoutRow.isPaid,
    decide_eq_true_eq] at found
  obtain ⟨⟨event, member, same, invalid⟩, after, stepped, row, stored, paid, of_event⟩ := found
  refine ⟨cfg, after, thread, checkout, run, records, stepped, ⟨row, stored, paid, of_event.trans eventId.symm⟩,
    event, member, same.trans eventId.symm, fun passes => ?_⟩
  rw [(validateParticipantData_iff _).mpr (checksPass_iff.mp passes).filled] at invalid
  cases invalid

end Meetup

end Manual

end Payknot
