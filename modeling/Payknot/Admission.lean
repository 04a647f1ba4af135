import Payknot.Embedding
import Payknot.History
import Payknot.Mainnet
import Payknot.Serving

/-! Admission. Opening a checkout session, legacy or v1, is one list of checks; each of the
two endpoints is that list followed by its own way to store the session. -/
namespace Payknot
open GoText Interleaving Machine

section Checks

def eventChecks (p : Platform) (event : EventRow) (data : Option Object) :
    Handler (Except (String × Nat) Unit) := do
  let now ← timeNow
  if event.columns.checkoutExpiresAt < now then return .error ("Checkout has expired", 410)
  match validateParticipantData p (decodeParticipantFields p event.columns.participantFormSchema) data with
  | .error text => return .error (text, 400)
  | .ok _ =>
      match ← ensureParticipantEmailAvailable p event.id data with
      | .error text => return .error (text, 409)
      | .ok _ => return .ok ()

/-- What both check of the payment method; they differ in one text. -/
def methodRefusal (p : Platform) (needed : String) (methods : PaymentMethods)
    (paymentMethod walletAddress : String) : Option String :=
  if paymentMethod = "wallet" then
    if !methods.wallet then some "wallet method disabled"
    else if !isValidWalletAddress p walletAddress then some needed
    else none
  else if paymentMethod = "qr" then
    if !methods.qr then some "qr method disabled" else none
  else some "invalid payment method"

def checkedEvent (p : Platform) (found : Handler (Except Fault (Option EventRow)))
    (data : Option Object) : Handler (Except (String × Nat) EventRow) := do
  match ← found with
  | .ok (some event) =>
      match ← eventChecks p event data with
      | .error refusal => return .error refusal
      | .ok _ => return .ok event
  | _ => return .error ("Event not found", 404)

def settleMethod (p : Platform) (needed paymentMethod walletAddress : String)
    (accept : EventRow → Handler Answer) : Except (String × Nat) EventRow → Handler Answer
  | .error (text, status) => return httpError text status
  | .ok event =>
      match methodRefusal p needed (decodePaymentMethods event.columns.paymentMethods) paymentMethod
          walletAddress with
      | some text => return httpError text 400
      | none => accept event

theorem checkedEvent_bind (p : Platform) (found : Handler (Except Fault (Option EventRow)))
    (data : Option Object) (next : Except (String × Nat) EventRow → Handler Answer) :
    checkedEvent p found data >>= next = (do
      match ← found with
      | .ok (some event) =>
          let now ← timeNow
          if event.columns.checkoutExpiresAt < now then next (.error ("Checkout has expired", 410))
          else
            match validateParticipantData p (decodeParticipantFields p event.columns.participantFormSchema)
                data with
            | .error text => next (.error (text, 400))
            | .ok _ =>
                match ← ensureParticipantEmailAvailable p event.id data with
                | .error text => next (.error (text, 409))
                | .ok _ => next (.ok event)
      | _ => next (.error ("Event not found", 404))) := by
  rw [checkedEvent, Program.bind_assoc]
  refine congrArg (found >>= ·) (funext fun found => ?_)
  rcases found with fault | (_ | event)
  · rfl
  · rfl
  · dsimp only
    rw [eventChecks, Program.bind_assoc, Program.bind_assoc]
    refine congrArg (timeNow >>= ·) (funext fun now => ?_)
    by_cases expired : event.columns.checkoutExpiresAt < now
    · rw [if_pos expired, if_pos expired]
      rfl
    · rw [if_neg expired, if_neg expired]
      cases validateParticipantData p (decodeParticipantFields p event.columns.participantFormSchema) data with
      | error text => rfl
      | ok _ =>
          dsimp only
          rw [Program.bind_assoc]
          refine congrArg (ensureParticipantEmailAvailable p event.id data >>= ·) (funext fun free => ?_)
          cases free <;> rfl

-- The legacy endpoint chooses by the method first.
theorem createCheckoutInvoice_eq (p : Platform) {r : CreateCheckoutInvoiceRequest}
    (named : trimSpace r.slug ≠ "") :
    createCheckoutInvoice p ⟨.post, some r⟩ =
      checkedEvent p (sql (.selectActiveEventBySlug (trimSpace r.slug))) r.participantData >>=
        settleMethod p "walletAddress is required for wallet method" (trimSpace r.paymentMethod)
          (trimSpace r.walletAddress) fun event =>
            createCheckoutInvoice.invoice p event (trimSpace r.walletAddress) (trimSpace r.paymentMethod)
              r.participantData := by
  rw [checkedEvent_bind]
  unfold createCheckoutInvoice
  simp only [ne_eq, not_true_eq_false, if_false, named]
  refine congrArg (sql (.selectActiveEventBySlug (trimSpace r.slug)) >>= ·) (funext fun found => ?_)
  rcases found with fault | (_ | event)
  · rfl
  · rfl
  · refine congrArg (timeNow >>= ·) (funext fun now => ?_)
    by_cases expired : event.columns.checkoutExpiresAt < now
    · rw [if_pos expired, if_pos expired]
      rfl
    · rw [if_neg expired, if_neg expired]
      generalize validateParticipantData p _ _ = valid
      cases valid with
      | error text => rfl
      | ok _ =>
          refine congrArg (ensureParticipantEmailAvailable p event.id r.participantData >>= ·)
            (funext fun free => ?_)
          cases free with
          | error text => rfl
          | ok _ =>
              dsimp only [settleMethod]
              generalize decodePaymentMethods event.columns.paymentMethods = methods
              unfold methodRefusal
              split
              · split
                · rfl
                · split
                  · rfl
                  · rfl
              · split
                · split
                  · rfl
                  · rfl
                · rfl

-- The v1 endpoint looks for each refusal in turn.
theorem v1CreatePaymentSession_eq (p : Platform) {r : V1CreateRequest} {req : V1CreatePaymentSessionRequest}
    (posted : r.method = .post) (body : r.body = some req) (keyless : trimSpace r.idempotencyKey = "") :
    v1CreatePaymentSession p r =
      checkedEvent p (selectSessionEvent req.eventID (trimSpace req.slug)) req.participantData >>=
        settleMethod p "walletAddress is required for wallet" (trimSpace req.paymentMethod)
          (trimSpace req.walletAddress) fun event =>
            v1CreatePaymentSession.session p event (sessionOwner r.claims) "" (trimSpace req.walletAddress)
              (trimSpace req.paymentMethod) req.participantData := by
  rw [checkedEvent_bind]
  unfold v1CreatePaymentSession
  simp only [ne_eq, posted, not_true_eq_false, if_false, body, keyless, replayed]
  change selectSessionEvent req.eventID (trimSpace req.slug) >>= _ = _
  refine congrArg (selectSessionEvent req.eventID (trimSpace req.slug) >>= ·) (funext fun found => ?_)
  rcases found with fault | (_ | event)
  · rfl
  · rfl
  · refine congrArg (timeNow >>= ·) (funext fun now => ?_)
    by_cases expired : event.columns.checkoutExpiresAt < now
    · rw [if_pos expired, if_pos expired]
      rfl
    · rw [if_neg expired, if_neg expired]
      generalize validateParticipantData p _ _ = valid
      cases valid with
      | error text => rfl
      | ok _ =>
          refine congrArg (ensureParticipantEmailAvailable p event.id req.participantData >>= ·)
            (funext fun free => ?_)
          cases free with
          | error text => rfl
          | ok _ =>
              dsimp only [settleMethod]
              generalize decodePaymentMethods event.columns.paymentMethods = methods
              unfold methodRefusal
              by_cases wallet : trimSpace req.paymentMethod = "wallet"
              · cases enabled : methods.wallet with
                | false => simp [wallet]
                | true => cases isValidWalletAddress p (trimSpace req.walletAddress) <;> simp [wallet]
              · by_cases qr : trimSpace req.paymentMethod = "qr"
                · cases methods.qr <;> simp [qr]
                · simp [wallet, qr]

end Checks


section Agreement
variable {p : Platform} {faults : Op → Option Fault} {w w1 w2 : World}

def invoicesWritten (log : History) : List InvoiceHash :=
  log.filterMap fun entry =>
    match entry.op with
    | .redis (.hSet _ hash) => some hash
    | _ => none

@[simp] theorem invoicesWritten_hSet (key : String) (hash : InvoiceHash) (reply : Except Fault Unit)
    (log : History) :
    invoicesWritten (⟨.redis (.hSet key hash), reply⟩ :: log) = hash :: invoicesWritten log := rfl

@[simp] theorem invoicesWritten_sql (statement : Sql) (reply : Except Fault statement.Result) (log : History) :
    invoicesWritten (⟨.sql statement, reply⟩ :: log) = invoicesWritten log := rfl

@[simp] theorem invoicesWritten_expire (key : String) (ttl : Time) (reply : Except Fault Unit) (log : History) :
    invoicesWritten (⟨.redis (.expire key ttl), reply⟩ :: log) = invoicesWritten log := rfl

@[simp] theorem invoicesWritten_now (now : Time) (log : History) :
    invoicesWritten (⟨.now, now⟩ :: log) = invoicesWritten log := rfl

@[simp] theorem invoicesWritten_newUUID (uuid : String) (log : History) :
    invoicesWritten (⟨.newUUID, uuid⟩ :: log) = invoicesWritten log := rfl

@[simp] theorem invoicesWritten_webhook (event : String) (occurredAt : Time) (payload : List (String × String))
    (reply : Reply (.postWebhook event occurredAt payload)) (log : History) :
    invoicesWritten (⟨.postWebhook event occurredAt payload, reply⟩ :: log) = invoicesWritten log := rfl

/-- Statements and commands fail as `faults` has it. -/
def Faulty (p : Platform) (faults : Op → Option Fault) : Performing Reply World :=
  fun op w reply after => ∃ choice : Choice, choice.fault = faults op ∧ exec p choice op w = some (reply, after)

-- Of a choice an operation other than a draw reads the fault.
theorem exec_fault {op : Op} (drawn : op ≠ .newUUID) {choice choice' : Choice}
    (same : choice.fault = choice'.fault) : exec p choice op w = exec p choice' op w := by
  cases op with
  | newUUID => exact absurd rfl drawn
  | sql statement => simp only [exec, same]
  | redis command => simp only [exec, same]
  | rpc call => simp only [exec, same]
  | now => rfl
  | postWebhook event occurredAt payload => rfl

theorem faulty_single (op : Op) (w : World) (reply reply' : Reply op) (after after' : World)
    (drawn : op ≠ .newUUID) (performed : Faulty p faults op w reply after)
    (performed' : Faulty p faults op w reply' after') : reply = reply' ∧ after = after' := by
  obtain ⟨choice, fails, executed⟩ := performed
  obtain ⟨choice', fails', executed'⟩ := performed'
  rw [exec_fault drawn (fails.trans fails'.symm), executed'] at executed
  cases executed
  exact ⟨rfl, rfl⟩

theorem written_checkEmail (eventID : Int64) (otherThan : Option String) (data : Option Object)
    (log : History) :
    (checkEmail p eventID otherThan data).Along (fun _ op => op ≠ .newUUID)
      (fun later _ => invoicesWritten later = invoicesWritten log) log := by
  unfold checkEmail
  dsimp only
  split
  · simp
  · simp only [along_sql]
    refine ⟨fun drawn => Op.noConfusion drawn, ?_⟩
    rintro (fault | (_ | _)) <;> simp

theorem written_eventChecks (event : EventRow) (data : Option Object) (log : History) :
    (eventChecks p event data).Along (fun _ op => op ≠ .newUUID)
      (fun later _ => invoicesWritten later = invoicesWritten log) log := by
  unfold eventChecks
  simp only [along_timeNow]
  refine ⟨fun drawn => Op.noConfusion drawn, fun now => ?_⟩
  split
  · simp
  · split
    · simp
    · refine (written_checkEmail event.id none data _).sequence fun later free _ same => ?_
      cases free <;> simpa using same

theorem written_checkedEvent {found : Handler (Except Fault (Option EventRow))} {log : History}
    (reads : found.Along (fun _ op => op ≠ .newUUID)
      (fun later _ => invoicesWritten later = invoicesWritten log) log)
    (data : Option Object) :
    (checkedEvent p found data).Along (fun _ op => op ≠ .newUUID)
      (fun later _ => invoicesWritten later = invoicesWritten log) log := by
  unfold checkedEvent
  refine reads.sequence fun after result _ unwritten => ?_
  rcases result with fault | (_ | event)
  · simpa using unwritten
  · simpa using unwritten
  · refine (written_eventChecks event data after).sequence fun later refused _ same => ?_
    cases refused <;> simpa using same.trans unwritten

theorem written_invoice (event : EventRow) (walletAddress paymentMethod : String)
    (data : Option Object) (log : History) :
    (createCheckoutInvoice.invoice p event walletAddress paymentMethod data).Along (fun _ _ => True)
      (fun later _ => invoicesWritten later =
        invoiceHash p event walletAddress paymentMethod data :: invoicesWritten log) log := by
  unfold createCheckoutInvoice.invoice
  simp only [along_newUUID, along_redis, true_and]
  rintro uuid (fault | _)
  · simp
  · simp only [along_redis, true_and]
    rintro (fault | _) <;> simp

theorem written_session (event : EventRow) (ownerEmail walletAddress paymentMethod : String)
    (data : Option Object) (log : History) :
    (v1CreatePaymentSession.session p event ownerEmail "" walletAddress paymentMethod data).Along
      (fun _ _ => True)
      (fun later _ => invoicesWritten later =
        invoiceHash p event walletAddress paymentMethod data :: invoicesWritten log) log := by
  unfold v1CreatePaymentSession.session
  simp only [along_newUUID, along_timeNow, along_redis, true_and]
  rintro session reference now (fault | _)
  · simp
  · simp only [along_redis, along_sql, true_and]
    rintro expired (fault | _)
    · simp
    · unfold remember
      rw [if_neg (by simp), Program.along_bind, Program.along_pure, emitPaymentWebhook]
      split
      · rw [Program.along_bind, Program.along_pure]
        simp
      · rw [Program.along_bind]
        simp [Program.perform]

theorem methodRefusal_alike (needed needed' : String) (methods : PaymentMethods)
    (paymentMethod walletAddress : String) :
    (methodRefusal p needed methods paymentMethod walletAddress).isNone =
      (methodRefusal p needed' methods paymentMethod walletAddress).isNone := by
  unfold methodRefusal
  split
  · split
    · rfl
    · split
      · rfl
      · rfl
  · rfl

def invoicesOpened (p : Platform) (paymentMethod walletAddress : String) (data : Option Object) :
    Except (String × Nat) EventRow → List InvoiceHash
  | .error _ => []
  | .ok event =>
      if (methodRefusal p "" (decodePaymentMethods event.columns.paymentMethods) paymentMethod
          walletAddress).isNone then [invoiceHash p event walletAddress paymentMethod data]
      else []

-- What the rest of a request writes once the event is checked.
theorem written_settleMethod {needed paymentMethod walletAddress : String} {accept : EventRow → Handler Answer}
    {data : Option Object} {log later : History} {answer : Answer} {checked : Except (String × Nat) EventRow}
    (accepts : ∀ event, (accept event).Along (fun _ _ => True) (fun later _ => invoicesWritten later =
      invoiceHash p event walletAddress paymentMethod data :: invoicesWritten log) log)
    (follows : Follows (settleMethod p needed paymentMethod walletAddress accept checked) log answer later) :
    invoicesWritten later =
      invoicesOpened p paymentMethod walletAddress data checked ++ invoicesWritten log := by
  cases checked with
  | error refusal =>
      cases follows
      rfl
  | ok event =>
      have alike := methodRefusal_alike (p := p) needed "" (decodePaymentMethods event.columns.paymentMethods)
        paymentMethod walletAddress
      dsimp only [settleMethod, invoicesOpened] at follows ⊢
      rw [← alike]
      split at follows
      · next text refused =>
        cases follows
        rw [refused]
        rfl
      · next granted =>
        rw [granted]
        exact (accepts event).follows follows

/-- Legacy and v1 creation, run in one state with the same operations failing, write the same
invoice or none. -/
theorem sessions_admit_alike {r : CreateCheckoutInvoiceRequest} (named : trimSpace r.slug ≠ "")
    {v : V1CreateRequest} {eventID : Int64} (posted : v.method = .post)
    (keyless : trimSpace v.idempotencyKey = "") (unnumbered : eventID ≤ 0)
    (body : v.body = some ⟨eventID, r.slug, r.paymentMethod, r.walletAddress, r.participantData⟩)
    {answer answer' : Answer} {later later' : History}
    (legacy : Traces (Faulty p faults) (createCheckoutInvoice p ⟨.post, some r⟩) w [] answer w1 later)
    (v1 : Traces (Faulty p faults) (v1CreatePaymentSession p v) w [] answer' w2 later') :
    invoicesWritten later = invoicesWritten later' := by
  rw [createCheckoutInvoice_eq p named] at legacy
  have lookup : selectSessionEvent eventID (trimSpace r.slug) =
      sql (.selectActiveEventBySlug (trimSpace r.slug)) := by
    rw [selectSessionEvent, if_neg (by simpa using unnumbered)]
  rw [v1CreatePaymentSession_eq p posted body keyless] at v1
  dsimp only at v1
  rw [lookup] at v1
  obtain ⟨checked, middle, seen, first, rest⟩ := legacy.of_bind
  obtain ⟨checked', middle', seen', first', rest'⟩ := v1.of_bind
  have reads : (sql (.selectActiveEventBySlug (trimSpace r.slug))).Along (fun _ op => op ≠ .newUUID)
      (fun later _ => invoicesWritten later = invoicesWritten []) [] := by
    rw [sql, Program.perform, Program.along_call]
    exact ⟨fun drawn => Op.noConfusion drawn, fun reply => by simp⟩
  have along := written_checkedEvent (p := p) reads r.participantData
  obtain ⟨rfl, rfl, rfl⟩ := Traces.unique faulty_single along first first'
  rw [written_settleMethod (fun event => written_invoice event _ _ _ _) rest.follows,
    written_settleMethod (fun event => written_session event _ _ _ _ _) rest'.follows]

open Mainnet in
theorem sessions_admit_alike_meetup :
    ∃ (answer answer' : Answer) (w1 w2 : World) (later later' : History),
      Traces (Faulty platform fun _ => none) (createCheckoutInvoice platform ⟨.post, some ⟨"meetup", payer,
        some participant, "wallet"⟩⟩) (opening []).world [] answer w1 later ∧
      Traces (Faulty platform fun _ => none) (v1CreatePaymentSession platform ⟨.post, none, "",
        some ⟨0, "meetup", "wallet", payer, some participant⟩⟩) (opening []).world [] answer' w2 later' ∧
      (invoicesWritten later).length = 1 ∧ invoicesWritten later = invoicesWritten later' := by
  have runs (program : Handler Answer) (uuids : List String)
      (played : (program.playLogged (exec platform) (uuids.map fun uuid => ⟨none, uuid⟩)
        (opening []).world []).any (fun run => (invoicesWritten run.2.2).length = 1) = true) :
      ∃ answer w later, Traces (Faulty platform fun _ => none) program (opening []).world [] answer w later ∧
        (invoicesWritten later).length = 1 := by
    rw [Option.any_eq_true] at played
    obtain ⟨⟨answer, w, later⟩, ran, written⟩ := played
    have all : ∀ choice ∈ uuids.map fun uuid => (⟨none, uuid⟩ : Choice), up choice := by
      intro choice member
      obtain ⟨uuid, _, rfl⟩ := List.mem_map.mp member
      rfl
    exact ⟨answer, w, later, Program.playLogged_traces (machine platform) all ran, by simpa using written⟩
  obtain ⟨answer, w1, later, legacy, written⟩ := runs
    (createCheckoutInvoice platform ⟨.post, some ⟨"meetup", payer, some participant, "wallet"⟩⟩)
    ["", "", "", uuid1, "", ""] (by decide +kernel)
  obtain ⟨answer', w2, later', v1, _⟩ := runs
    (v1CreatePaymentSession platform ⟨.post, none, "",
      some ⟨0, "meetup", "wallet", payer, some participant⟩⟩)
    ["", "", "", uuid1, uuid2, "", "", "", ""] (by decide +kernel)
  exact ⟨answer, answer', w1, w2, later, later', legacy, v1, written,
    sessions_admit_alike (by decide +kernel) rfl (by decide +kernel) (by decide) rfl legacy v1⟩

end Agreement

end Payknot
