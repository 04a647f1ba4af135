import Payknot.Store
import Mathlib.Tactic.Common

/-! What each operation does to the world. A statement is atomic: it answers an
error and changes nothing, or takes full effect. Constraints are those of the
migrations: unique references, the unique (owner, key) pair of payment sessions
and the cascading foreign keys to events. -/
namespace Payknot
open GoText Interleaving

/-- `UPDATE ... WHERE`. -/
def updateWhere {Row : Type} (selected : Row → Bool) (set : Row → Row) (rows : List Row) : List Row :=
  rows.map fun row => if selected row then set row else row

def uniqueViolation (constraint : String) : Fault :=
  ⟨"ERROR: duplicate key value violates unique constraint \"" ++ constraint ++ "\" (SQLSTATE 23505)"⟩

def foreignKeyViolation (constraint : String) : Fault :=
  ⟨"ERROR: insert or update violates foreign key constraint \"" ++ constraint ++ "\" (SQLSTATE 23503)"⟩

def invalidInput (type : String) : Fault :=
  ⟨"ERROR: invalid input syntax for type " ++ type ++ " (SQLSTATE 22P02)"⟩

def CheckoutRow.isPaid (row : CheckoutRow) : Bool := row.status = .paid

/-- The row satisfies `LOWER(COALESCE(participant_data->>'email', '')) = email`. -/
def CheckoutRow.emailIs (p : Platform) (row : CheckoutRow) (email : String) : Bool :=
  p.lower ((p.jsonbText row.participantData "email").getD "") = email

def paidEmailRow (p : Platform) (eventId : Int64) (otherThan : Option String) (email : String)
    (checkouts : List CheckoutRow) : Bool :=
  checkouts.any fun row => row.eventId = eventId && row.isPaid &&
    (otherThan.all fun reference => row.reference ≠ reference) && row.emailIs p email

def paidRow (eventId : Int64) (checkouts : List CheckoutRow) : Bool :=
  checkouts.any fun row => row.eventId = eventId && row.isPaid

/-- `ON CONFLICT (reference) DO UPDATE SET status, signature, err_reason`. -/
def InvoiceRow.overwrite (row proposed : InvoiceRow) : InvoiceRow :=
  { row with status := proposed.status, signature := proposed.signature
             errReason := proposed.errReason }

def upsertInvoiceRows (row : InvoiceRow) (invoices : List InvoiceRow) : List InvoiceRow :=
  if invoices.any (·.reference = row.reference) then
    updateWhere (·.reference = row.reference) (·.overwrite row) invoices
  else invoices ++ [row]

def World.upsertInvoice (w : World) (row : InvoiceRow) : World :=
  { w with invoices := upsertInvoiceRows row w.invoices }

def PaidCheckout.row (checkout : PaidCheckout) (id : Nat) (now : Time) (data : Json) : CheckoutRow :=
  { id := id, eventId := checkout.eventId, walletAddress := checkout.walletAddress
    reference := checkout.reference, signature := some checkout.signature
    amount := checkout.amount, status := .paid, createdAt := now, paidAt := some now
    participantData := data, paymentMethod := checkout.paymentMethod }

/-- `ON CONFLICT (reference) DO UPDATE`: amount, event and wallet are kept. -/
def CheckoutRow.overwrite (row : CheckoutRow) (checkout : PaidCheckout) (now : Time)
    (data : Json) : CheckoutRow :=
  { row with status := .paid, signature := some checkout.signature, paidAt := some now
             participantData := data, paymentMethod := checkout.paymentMethod }

def overwriteCheckouts (checkout : PaidCheckout) (now : Time) (data : Json)
    (checkouts : List CheckoutRow) : List CheckoutRow :=
  updateWhere (·.reference = checkout.reference) (·.overwrite checkout now data) checkouts

def World.appendCheckout (w : World) (checkout : PaidCheckout) (data : Json) : World :=
  { w with checkouts := w.checkouts ++ [checkout.row w.nextCheckoutId w.now data]
           nextCheckoutId := w.nextCheckoutId + 1 }

def runUpsertPaidCheckout (p : Platform) (checkout : PaidCheckout) (w : World) :
    Except Fault (Unit × World) :=
  match p.jsonb checkout.participantData with
  | none => .error (invalidInput "json")
  | some data =>
      if w.checkouts.any (·.reference = checkout.reference) then
        .ok ((), { w with checkouts := overwriteCheckouts checkout w.now data w.checkouts })
      else if w.events.any (·.id = checkout.eventId) then
        .ok ((), w.appendCheckout checkout data)
      else .error (foreignKeyViolation "event_checkouts_event_id_fkey")

def runInsertPaidCheckout (p : Platform) (checkout : PaidCheckout) (w : World) :
    Except Fault (Unit × World) :=
  match p.jsonb checkout.participantData with
  | none => .error (invalidInput "json")
  | some data =>
      if w.checkouts.any (·.reference = checkout.reference) then
        .error (uniqueViolation "event_checkouts_reference_key")
      else if w.events.any (·.id = checkout.eventId) then
        .ok ((), w.appendCheckout checkout data)
      else .error (foreignKeyViolation "event_checkouts_event_id_fkey")

def recoverable (w : World) (row : CheckoutRow) : Option CheckoutRecoveryRow :=
  if row.createdAt > w.now - 24 * 60 * minute ∧
      (row.status = .pendingPayment ∨ row.status = .failed) then
    match row.signature, w.events.find? (·.id = row.eventId) with
    | some signature, some event =>
        if signature ≠ "" then
          some ⟨row.id, row.reference, signature, row.amount, row.createdAt,
            event.columns.merchantWallet⟩
        else none
    | _, _ => none
  else none

def CheckoutRow.markPaid (row : CheckoutRow) (signature senderWallet : String) (now : Time) :
    CheckoutRow :=
  { row with status := .paid, signature := some signature, paidAt := some (row.paidAt.getD now)
             walletAddress := if row.walletAddress = "" then senderWallet else row.walletAddress }

def markPaidRows (id : Nat) (signature senderWallet : String) (now : Time)
    (checkouts : List CheckoutRow) : List CheckoutRow :=
  updateWhere (·.id = id) (·.markPaid signature senderWallet now) checkouts

def markFailedRows (id : Nat) (checkouts : List CheckoutRow) : List CheckoutRow :=
  updateWhere (fun row => row.id = id && !row.isPaid) (fun row => { row with status := .failed })
    checkouts

def NewSession.row (session : NewSession) (id reference : String) (data : Json) : SessionRow :=
  { id := id, eventId := session.eventId, ownerEmail := session.ownerEmail
    participantData := data, walletAddress := session.walletAddress
    paymentMethod := session.paymentMethod, state := .awaitingPayment, reference := reference
    amountAtomic := session.amountAtomic, mint := session.mint
    merchantWallet := session.merchantWallet, idempotencyKey := session.idempotencyKey
    signature := none, expiresAt := session.expiresAt }

def NewSession.texts (session : NewSession) : List String :=
  [session.ownerEmail, session.walletAddress, session.paymentMethod, session.mint, session.merchantWallet,
    session.idempotencyKey]

def runInsertSession (p : Platform) (session : NewSession) (w : World) : Except Fault (Unit × World) :=
  match p.uuidText session.id, p.uuidText session.reference, p.jsonb session.participantData with
  | some id, some reference, some data =>
      if !session.texts.all storable then .error invalidByteSequence
      else if w.sessions.any (·.id = id) then .error (uniqueViolation "payment_sessions_pkey")
      else if w.sessions.any (·.reference = reference) then
        .error (uniqueViolation "payment_sessions_reference_key")
      -- The partial index skips NULL keys only; a missing header is stored as ''.
      else if w.sessions.any (fun row => row.ownerEmail = session.ownerEmail &&
          row.idempotencyKey = session.idempotencyKey) then
        .error (uniqueViolation "payment_sessions_owner_idem_idx")
      else if w.events.any (·.id = session.eventId) then
        .ok ((), { w with sessions := w.sessions ++ [session.row id reference data] })
      else .error (foreignKeyViolation "payment_sessions_event_id_fkey")
  | some _, some _, none => .error (invalidInput "json")
  | _, _, _ => .error (invalidInput "uuid")

def withSessionId {Value : Type} (p : Platform) (id : String)
    (run : String → Except Fault (Value × World)) : Except Fault (Value × World) :=
  match p.uuidText id with
  | none => .error (invalidInput "uuid")
  | some id => run id

def runInsertAttempt (attempt : AttemptRow) (w : World) : Except Fault (Unit × World) :=
  if w.sessions.any (·.id = attempt.sessionId) then
    .ok ((), { w with attempts := w.attempts ++ [attempt] })
  else .error (foreignKeyViolation "payment_attempts_session_id_fkey")

def World.updateSession (w : World) (id : String) (set : SessionRow → SessionRow) : World :=
  { w with sessions := updateWhere (·.id = id) set w.sessions }

def World.removeEvent (w : World) (id : Int64) : World :=
  { w with events := w.events.filter (·.id ≠ id)
           checkouts := w.checkouts.filter (·.eventId ≠ id)
           sessions := w.sessions.filter (·.eventId ≠ id)
           attempts := w.attempts.filter fun attempt =>
             (w.sessions.filter (·.eventId ≠ id)).any (·.id = attempt.sessionId) }

def ownedEvents (w : World) (id : Int64) (ownerEmail : String) : Nat :=
  w.events.countP fun row => row.id = id && row.ownerEmail = ownerEmail

def upsertRecord (record : IdempotencyRow) (records : List IdempotencyRow) : List IdempotencyRow :=
  let same (row : IdempotencyRow) : Bool := row.ownerEmail = record.ownerEmail &&
    row.idemKey = record.idemKey && row.endpoint = record.endpoint
  if records.any same then updateWhere same (fun row => { row with response := record.response }) records
  else records ++ [record]

def Sql.run (p : Platform) : (statement : Sql) → World → Except Fault (statement.Result × World)
  | .selectActiveEventBySlug slug, w =>
      .ok (w.events.find? fun row => row.slug = slug && row.status = "active", w)
  | .selectActiveEventById id, w =>
      .ok (w.events.find? fun row => row.id = id && row.status = "active", w)
  | .eventSlugExists slug, w => .ok (w.events.any (·.slug = slug), w)
  | .insertEvent slug ownerEmail columns, w =>
      if w.events.any (·.slug = slug) then .error (uniqueViolation "events_slug_key")
      else if w.nextEventId < 2 ^ 63 then
        .ok (Int64.ofNat w.nextEventId,
          { w with events := w.events ++
                     [⟨Int64.ofNat w.nextEventId, slug, ownerEmail, "active", columns, w.now⟩]
                   nextEventId := w.nextEventId + 1 })
      else .error ⟨"ERROR: nextval: reached maximum value of sequence \"events_id_seq\" (SQLSTATE 2200H)"⟩
  | .hasPaidDeposits eventId, w => .ok (paidRow eventId w.checkouts, w)
  | .updateEvent id ownerEmail columns, w =>
      .ok (ownedEvents w id ownerEmail,
        { w with events := updateWhere (fun row => row.id = id && row.ownerEmail = ownerEmail)
                   (fun row => { row with columns := columns }) w.events })
  | .deleteEvent id ownerEmail, w =>
      if ownedEvents w id ownerEmail = 0 then .ok ((0 : Nat), w)
      else .ok (ownedEvents w id ownerEmail, w.removeEvent id)
  | .paidEmailExists eventId otherThan email, w =>
      .ok (paidEmailRow p eventId otherThan email w.checkouts, w)
  | .upsertPaidInvoice walletAddress reference signature amount, w =>
      .ok ((), w.upsertInvoice ⟨walletAddress, reference, amount, some signature, .paid, none⟩)
  | .upsertErrorInvoice walletAddress reference signature amount errReason, w =>
      match errReason with
      | none => .error invalidByteSequence
      | some text =>
          .ok ((), w.upsertInvoice ⟨walletAddress, reference, amount, some signature, .error, some text⟩)
  | .insertPaidInvoice walletAddress reference signature amount, w =>
      if w.invoices.any (·.reference = reference) then
        .error (uniqueViolation "invoice_reference_key")
      else .ok ((), { w with invoices :=
        w.invoices ++ [⟨walletAddress, reference, amount, some signature, .paid, none⟩] })
  | .deletePendingInvoice reference, w =>
      .ok ((), { w with invoices := w.invoices.filter fun row =>
        !(row.reference = reference && row.signature = none && row.status = .pending) })
  | .selectCheckout reference, w => .ok (w.checkouts.find? (·.reference = reference), w)
  | .upsertPaidCheckout checkout, w => runUpsertPaidCheckout p checkout w
  | .insertPaidCheckout checkout, w => runInsertPaidCheckout p checkout w
  | .deletePendingCheckout reference, w =>
      .ok ((), { w with checkouts := w.checkouts.filter fun row =>
        !(row.reference = reference && row.signature = none && row.status = .pendingPayment) })
  | .selectRecoverable, w =>
      .ok (((w.checkouts.filterMap (recoverable w)).mergeSort
        fun a b => decide (b.createdAt ≤ a.createdAt)).take 200, w)
  | .markCheckoutPaid id signature senderWallet, w =>
      .ok ((), { w with checkouts := markPaidRows id signature senderWallet w.now w.checkouts })
  | .markCheckoutFailed id, w => .ok ((), { w with checkouts := markFailedRows id w.checkouts })
  | .insertSession session, w => runInsertSession p session w
  | .selectSession id, w =>
      withSessionId p id fun id => .ok (w.sessions.find? (·.id = id), w)
  | .setSessionState id state, w =>
      withSessionId p id fun id => .ok ((), w.updateSession id fun row => { row with state := state })
  | .setSessionPaid id signature, w =>
      withSessionId p id fun id => .ok ((), w.updateSession id fun row =>
        { row with state := .paid, signature := some signature })
  | .insertFailedAttempt id signature errorReason, w =>
      match errorReason with
      | none => .error invalidByteSequence
      | some text => withSessionId p id fun id => runInsertAttempt ⟨id, signature, "failed", some text⟩ w
  | .insertPaidAttempt id signature, w =>
      withSessionId p id fun id => runInsertAttempt ⟨id, signature, "paid", none⟩ w
  | .loadIdempotent ownerEmail idemKey endpoint, w =>
      .ok ((w.records.find? fun row => row.ownerEmail = ownerEmail && row.idemKey = idemKey &&
        row.endpoint = endpoint).map (·.response), w)
  | .saveIdempotent record, w => .ok ((), { w with records := upsertRecord record w.records })

def setDeadline (key : String) (deadline : Time) (cache : List CachedInvoice) :
    List CachedInvoice :=
  updateWhere (·.key = key) (fun cached => { cached with deadline := some deadline }) cache

def Redis.run : (command : Redis) → World → Except Fault (command.Result × World)
  | .hSet key hash, w =>
      let deadline := (w.cache.find? (·.key = key)).bind (·.deadline)
      .ok ((), { w with cache := ⟨key, hash, deadline⟩ :: w.cache.filter (·.key ≠ key) })
  | .expire key ttl, w =>
      .ok ((), { w with cache := setDeadline key (w.now + ttl) w.cache })
  | .hGetAll key, w => .ok ((w.cache.find? (·.key = key)).map (·.hash), w)
  | .del key, w => .ok ((), { w with cache := w.cache.filter (·.key ≠ key) })

def Rpc.run : (call : Rpc) → World → Except Fault (call.Result × World)
  | .getHealth, w => .ok ((), w)
  | .getTransaction _ signature, w =>
      match w.chain.find? (·.signature = signature) with
      | none => .error ⟨"not found"⟩
      | some landed => .ok (landed.result, w)
  | .getSignaturesForAddress _ address limit, w =>
      .ok (((w.chain.filter (·.addresses.contains address)).take limit).map
        fun landed => ⟨landed.signature, landed.memo⟩, w)

/-- What the outside decides at one operation: a failure, or the UUID drawn. -/
structure Choice where
  fault : Option Fault
  uuid : String

def settle {Value : Type} (fault : Option Fault) (result : Except Fault (Value × World))
    (w : World) : Except Fault Value × World :=
  match fault, result with
  | some fault, _ => (.error fault, w)
  | none, .error fault => (.error fault, w)
  | none, .ok (value, after) => (.ok value, after)

def exec (p : Platform) (choice : Choice) : (op : Op) → World → Option (Reply op × World)
  | .sql statement, w => some (settle choice.fault (statement.run p w) w)
  | .redis command, w => some (settle choice.fault (command.run w) w)
  | .rpc call, w => some (settle choice.fault (call.run w) w)
  | .newUUID, w =>
      if choice.uuid ∉ w.minted ∧ p.uuidText choice.uuid = some choice.uuid ∧
          p.uuidParse choice.uuid = true then
        some (choice.uuid, { w with minted := choice.uuid :: w.minted })
      else none
  | .now, w => some (w.now, w)
  | .postWebhook _ _ _, w => some ((), w)

/-- What happens outside the requests: time passes and Redis drops expired keys, or
a transaction lands. -/
inductive WorldEvent where
  | tick (elapsed : Nat)
  | land (landed : Landed)

def occur : WorldEvent → World → Option World
  | .tick elapsed, w =>
      let now := w.now + elapsed
      some { w with now := now, cache := w.cache.filter fun cached =>
        cached.deadline.all fun deadline => now < deadline }
  | .land landed, w =>
      if w.chain.any (·.signature = landed.signature) then none
      else some { w with chain := landed :: w.chain }

theorem settle_cases {Value : Type} {fault : Option Fault}
    {result : Except Fault (Value × World)} {w after : World} {reply : Except Fault Value}
    (settled : settle fault result w = (reply, after)) :
    (∃ text, reply = .error text ∧ after = w) ∨
      (∃ value, reply = .ok value ∧ result = .ok (value, after) ∧ fault = none) := by
  unfold settle at settled
  split at settled
  · cases settled
    exact .inl ⟨_, rfl, rfl⟩
  · cases settled
    exact .inl ⟨_, rfl, rfl⟩
  · cases settled
    exact .inr ⟨_, rfl, rfl, rfl⟩

theorem exec_sql {p : Platform} {choice : Choice} {statement : Sql} {w after : World}
    {reply : Except Fault statement.Result}
    (executed : exec p choice (.sql statement) w = some (reply, after)) :
    (∃ text, reply = .error text ∧ after = w) ∨
      (∃ value, reply = .ok value ∧ statement.run p w = .ok (value, after)) := by
  rcases settle_cases (Option.some.inj executed) with failed | ⟨value, same, ran, _⟩
  · exact .inl failed
  · exact .inr ⟨value, same, ran⟩

theorem exec_redis {p : Platform} {choice : Choice} {command : Redis} {w after : World}
    {reply : Except Fault command.Result}
    (executed : exec p choice (.redis command) w = some (reply, after)) :
    (∃ text, reply = .error text ∧ after = w) ∨
      (∃ value, reply = .ok value ∧ command.run w = .ok (value, after)) := by
  rcases settle_cases (Option.some.inj executed) with failed | ⟨value, same, ran, _⟩
  · exact .inl failed
  · exact .inr ⟨value, same, ran⟩

theorem exec_rpc {p : Platform} {choice : Choice} {call : Rpc} {w after : World}
    {reply : Except Fault call.Result}
    (executed : exec p choice (.rpc call) w = some (reply, after)) :
    after = w ∧ ∀ value, reply = .ok value → call.run w = .ok (value, w) := by
  rcases settle_cases (Option.some.inj executed) with ⟨text, rfl, rfl⟩ | ⟨value, rfl, ran, _⟩
  · exact ⟨rfl, by simp⟩
  · have same : after = w := by
      cases call with
      | getHealth => exact (congrArg Prod.snd (Except.ok.inj ran)).symm
      | getTransaction client signature =>
          simp only [Rpc.run] at ran
          split at ran
          · cases ran
          · cases ran
            rfl
      | getSignaturesForAddress client address limit =>
          exact (congrArg Prod.snd (Except.ok.inj ran)).symm
    subst same
    refine ⟨rfl, fun other equal => ?_⟩
    cases equal
    exact ran

end Payknot
