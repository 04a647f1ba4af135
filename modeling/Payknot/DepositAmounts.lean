import Payknot.Credits
import Payknot.Mainnet

/-! Deposit amounts. An event's amount is stored in millionths of the USDC asked for; the
product is an int64 and wraps around. -/
namespace Payknot
open GoText Interleaving Machine

section Conversion

/-- What is stored is the amount asked for, and the verifiers compare transfers with it. -/
structure ExactAmount (requested stored : Int64) : Prop where
  exactly : stored.toInt = 1000000 * requested.toInt
  positive : 0 < stored
  compared : (stored.toUInt64.toNat : Int) = 1000000 * requested.toInt

theorem toInt_positive {amount : Int64} (positive : 0 < amount) : 0 < amount.toInt := by
  have above := Int64.lt_iff_toInt_lt.mp positive
  simpa using above

theorem atomicAmount_toInt (amount : Int64) :
    (atomicAmount amount).toInt = (amount.toInt * 1000000).bmod (2 ^ 64) := by
  rw [atomicAmount, Int64.toInt_mul]
  rfl

-- The product fits exactly up to 9223372036854 USDC.
theorem atomicAmount_exact_iff {amount : Int64} (positive : 0 < amount) :
    (atomicAmount amount).toInt = 1000000 * amount.toInt ↔ amount.toInt ≤ 9223372036854 := by
  have above := toInt_positive positive
  constructor
  · intro exact_product
    have upper := (atomicAmount amount).toInt_lt
    rw [exact_product] at upper
    omega
  · intro small
    rw [atomicAmount_toInt, Int.bmod_eq_of_le (by omega) (by omega)]
    omega

theorem exactAmount_iff {amount : Int64} (positive : 0 < amount) :
    ExactAmount amount (atomicAmount amount) ↔ amount.toInt ≤ 9223372036854 := by
  have above := toInt_positive positive
  rw [← atomicAmount_exact_iff positive]
  constructor
  · exact ExactAmount.exactly
  · intro exact_product
    have above_zero : 0 < atomicAmount amount := by
      rw [Int64.lt_iff_toInt_lt]
      simpa [exact_product] using above
    exact ⟨exact_product, above_zero, (toNat_toUInt64 above_zero).trans exact_product⟩

end Conversion

section Requests
variable {p : Platform}

def Request.eventBody : Request → Option CreateEventRequest
  | .createEvent _ r => r.body
  | .updateEvent body _ _ => body
  | _ => none

theorem accepted_amount {body req : CreateEventRequest}
    (accepted : normalizeAndValidateEventRequest p body = .ok req) :
    req.amountUSDC = body.amountUSDC ∧ 0 < body.amountUSDC := by
  unfold normalizeAndValidateEventRequest at accepted
  dsimp only at accepted
  generalize (if (body.trimmed p).eventSource = "" then "custom" else (body.trimmed p).eventSource) = source
    at accepted
  split at accepted
  · cases accepted
  · split at accepted
    · cases accepted
    · split at accepted
      · cases accepted
      · split at accepted
        · cases accepted
        · split at accepted
          · cases accepted
          · next given =>
            split at accepted
            · cases accepted
            · cases accepted
              simp only [not_or, CreateEventRequest.trimmed] at given
              exact ⟨rfl, Int64.not_le.mp given.2.2⟩

/-- Events are written with the amount of the request that writes them. -/
def WritesAmount (p : Platform) (request : Request) (_ : History) : Op → Prop
  | .sql (.insertEvent _ _ columns) | .sql (.updateEvent _ _ columns) =>
      ∃ body req, request.eventBody = some body ∧ normalizeAndValidateEventRequest p body = .ok req ∧
        columns.amountUSDC = atomicAmount req.amountUSDC
  | _ => True

theorem amounts_createEvent (claims : Option AuthClaims) (r : HttpRequest CreateEventRequest) :
    (createEvent p claims r).Along (WritesAmount p (.createEvent claims r)) (fun _ _ => True) [] := by
  unfold createEvent
  split
  · simp
  · split
    · next body given =>
      split
      · simp
      · next req accepted =>
        split
        · split
          · simp
          · dsimp only
            split
            · simp
            · refine (along_tryEventSlugs (by simp [WritesAmount]) (by simp [WritesAmount]) _ _ _ _).sequence
                fun _ slug _ _ => ?_
              simp only [along_sql]
              refine ⟨⟨body, req, given, accepted, rfl⟩, ?_⟩
              rintro (fault | id) <;> simp
        · simp
    · simp

theorem amounts_updateEvent (body : Option CreateEventRequest) (eventID : Int64) (ownerEmail : String) :
    (updateEvent p body eventID ownerEmail).Along (WritesAmount p (.updateEvent body eventID ownerEmail))
      (fun _ _ => True) [] := by
  unfold updateEvent
  split
  · next body =>
    split
    · simp
    · next req accepted =>
      simp only [along_sql]
      refine ⟨trivial, ?_⟩
      rintro (fault | (_ | _))
      · simp
      · dsimp only
        split
        · simp
        · simp only [along_sql]
          refine ⟨⟨body, req, rfl, accepted, rfl⟩, ?_⟩
          rintro (fault | affected) <;> simp
      · simp
  · simp

theorem amounts_handler (request : Request) :
    (handler p request).Along (WritesAmount p request) (fun _ _ => True) [] := by
  have elsewhere (create : ∀ claims r, request ≠ .createEvent claims r)
      (update : ∀ body id ownerEmail, request ≠ .updateEvent body id ownerEmail) :
      (handler p request).Along (WritesAmount p request) (fun _ _ => True) [] := by
    refine Program.Along.mono (handlers_careful request) ?_ fun _ _ _ => trivial
    intro log op issued
    unfold WritesAmount
    split
    · obtain ⟨claims, r, same, _⟩ := issued
      exact absurd same (create _ _)
    · obtain ⟨⟨body, same⟩, _⟩ := issued
      exact absurd same (update _ _ _)
    · trivial
  cases request with
  | createEvent claims r => exact amounts_createEvent claims r
  | updateEvent body eventID ownerEmail => exact amounts_updateEvent body eventID ownerEmail
  | _ => exact elsewhere (fun _ _ => nofun) fun _ _ _ => nofun

end Requests

section Runs
variable {p : Platform} {init cfg : Service}

def Stored (thread : ServiceThread) (columns : EventColumns) : Prop :=
  (∃ slug ownerEmail id, thread.log.Saw (.sql (.insertEvent slug ownerEmail columns)) (.ok id)) ∨
    ∃ id ownerEmail affected, thread.log.Saw (.sql (.updateEvent id ownerEmail columns)) (.ok affected)

/-- In any run an event is stored by a request that names its amount, and the amount stored is
exact just up to 9223372036854 USDC. -/
theorem stored_amount_exact_iff (start : init.threads = [])
    (run : (machine p).Reaches (fun _ _ => True) init cfg) {thread : ServiceThread}
    (member : thread ∈ cfg.threads) {columns : EventColumns} (stored : Stored thread columns) :
    ∃ body req, thread.request.eventBody = some body ∧ normalizeAndValidateEventRequest p body = .ok req ∧
      (ExactAmount body.amountUSDC columns.amountUSDC ↔ body.amountUSDC.toInt ≤ 9223372036854) := by
  have justified : Justified (WritesAmount p) cfg :=
    Reaches.justified run (fun request => amounts_handler request) start
  have written : ∃ body req, thread.request.eventBody = some body ∧
      normalizeAndValidateEventRequest p body = .ok req ∧ columns.amountUSDC = atomicAmount req.amountUSDC := by
    rcases stored with ⟨slug, ownerEmail, id, saw⟩ | ⟨id, ownerEmail, affected, saw⟩
    · obtain ⟨_, _, issued⟩ := justified.saw member saw
      exact issued
    · obtain ⟨_, _, issued⟩ := justified.saw member saw
      exact issued
  obtain ⟨body, req, given, accepted, same⟩ := written
  obtain ⟨amount, positive⟩ := accepted_amount accepted
  refine ⟨body, req, given, accepted, ?_⟩
  rw [same, amount]
  exact exactAmount_iff positive

open Mainnet

def concert (amountUSDC : Int64) : Request :=
  .createEvent (some ⟨host⟩) ⟨.post, some
    { title := "Concert", description := "", eventImageURL := "", eventDate := ""
      checkoutExpiresAt := "2030-01-01T00:00:00Z", location := "", organizerName := ""
      merchantWallet := merchant, amountUSDC := amountUSDC, eventSource := "custom", sourceURL := ""
      participantFormSchema := [⟨"email", true⟩], paymentMethods := ⟨true, true⟩ }⟩

def storesFor (requested stored : Int64) (thread : ServiceThread) : Bool :=
  thread.request.eventBody.any (fun body => body.amountUSDC = requested) && thread.log.any fun entry =>
    match entry with
    | ⟨.sql (.insertEvent _ _ columns), .ok _⟩ => columns.amountUSDC = stored
    | _ => false

theorem stored_of {requested stored : Int64} (found : cfg.threads.any (storesFor requested stored) = true) :
    ∃ thread ∈ cfg.threads, ∃ body, ∃ columns : EventColumns, thread.request.eventBody = some body ∧
      Stored thread columns ∧
      body.amountUSDC = requested ∧ columns.amountUSDC = stored := by
  obtain ⟨thread, member, found⟩ := List.any_eq_true.mp found
  rw [storesFor, Bool.and_eq_true, Option.any_eq_true, List.any_eq_true] at found
  obtain ⟨⟨body, given, asked⟩, entry, among, meets⟩ := found
  split at meets
  · exact ⟨thread, member, body, _, given, .inl ⟨_, _, _, among⟩, by simpa using asked, by simpa using meets⟩
  · cases meets

theorem concert_stored {requested stored : Int64}
    (runs : ((machine platform).run (fun _ _ => true) (.arrive (concert requested) :: steps 0 2 "")
      (opening [])).any (fun cfg => cfg.threads.any (storesFor requested stored)) = true) :
    ∃ cfg : Service, (machine platform).Reaches (fun _ _ => True) (opening []) cfg ∧
      cfg.threads.any (storesFor requested stored) = true := by
  obtain ⟨cfg, run, found⟩ := run_meets (machine platform) (fun _ _ => true) _ _ _ runs
  exact ⟨cfg, run.mono fun _ _ _ => trivial, found⟩

theorem stored_amount_exact_iff_meetup :
    ∃ cfg : Service, ∃ thread ∈ cfg.threads, ∃ columns : EventColumns, columns.amountUSDC = 2000000 ∧
      ∃ body req, thread.request.eventBody = some body ∧
        normalizeAndValidateEventRequest platform body = .ok req ∧
        (ExactAmount body.amountUSDC columns.amountUSDC ↔ body.amountUSDC.toInt ≤ 9223372036854) := by
  obtain ⟨cfg, run, found⟩ := @concert_stored 2 2000000 (by decide +kernel)
  obtain ⟨thread, member, _, columns, _, stored, _, amount⟩ := stored_of found
  exact ⟨cfg, thread, member, columns, amount, stored_amount_exact_iff rfl run member stored⟩

/-- A concert for 2^58 USDC is stored as free. -/
theorem stored_amount_wraps :
    ∃ cfg : Service, (machine platform).Reaches (fun _ _ => True) (opening []) cfg ∧
      ∃ thread ∈ cfg.threads, ∃ body, ∃ columns : EventColumns, thread.request.eventBody = some body ∧
        Stored thread columns ∧ body.amountUSDC = 288230376151711744 ∧ columns.amountUSDC = 0 ∧
        ¬ ExactAmount body.amountUSDC columns.amountUSDC := by
  obtain ⟨cfg, run, found⟩ := @concert_stored 288230376151711744 0 (by decide +kernel)
  obtain ⟨thread, member, body, columns, given, stored, asked, amount⟩ := stored_of found
  refine ⟨cfg, run, thread, member, body, columns, given, stored, asked, amount, ?_⟩
  intro exactly
  rw [amount] at exactly
  exact absurd exactly.positive (by decide)

end Runs

end Payknot
