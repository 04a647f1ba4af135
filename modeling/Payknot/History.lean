import Payknot.Effects

/-! What a request has already seen when it issues an operation that matters: one
predicate over the request and its history, and one proof for each handler that it
issues nothing without it. -/
namespace Payknot
open GoText Interleaving

abbrev History := Log Reply

def readEvent : Entry Reply → Option EventRow
  | ⟨.sql (.selectActiveEventBySlug _), .ok (some event)⟩ => some event
  | ⟨.sql (.selectActiveEventById _), .ok (some event)⟩ => some event
  | _ => none

def EventRead (log : History) (event : EventRow) : Prop :=
  ∃ entry ∈ log, readEvent entry = some event

def Fetched (p : Platform) (log : History) (signature : String) (tx : Transaction) : Prop :=
  ∃ client sig result, p.signatureFromBase58 signature = .ok sig ∧
    log.Saw (.rpc (.getTransaction client sig)) (.ok result) ∧ decodeResult result = .ok tx

def Verified (p : Platform) (log : History) (reference signature : String) (amount : Int64)
    (merchant : String) : Prop :=
  ∃ tx sender, Fetched p log signature tx ∧
    verifyPayment p reference amount merchant tx = .accepted sender

def VerifiedDirect (p : Platform) (log : History) (signature : String) (amount : Int64)
    (merchant : String) : Prop :=
  ∃ tx sender, Fetched p log signature tx ∧ verifyDirect p amount merchant sender tx = .accepted ()

/-- Where a finaliser has reference, amount and merchant from: a legacy one from the
cached invoice, a v1 one from the session row. -/
structure Agreed (p : Platform) (request : Request) (log : History) (stored : InvoiceHash)
    (reference signature : String) (amount : Int64) : Prop where
  read : log.Saw (.redis (.hGetAll (redisKey reference))) (.ok (some stored))
  terms : (request.isLegacyFinaliser = true ∧ parseInt stored.amount = .ok amount ∧
      Verified p log reference signature amount (trimSpace stored.merchantWallet)) ∨
    (request.isV1Finaliser = true ∧ ∃ id session,
      log.Saw (.sql (.selectSession id)) (.ok (some session)) ∧ session.reference = reference ∧
      session.amountAtomic = amount ∧
      Verified p log reference signature amount session.merchantWallet)

theorem eventRead_cons (entry : Entry Reply) (log : History) (event : EventRow) :
    EventRead (entry :: log) event ↔ readEvent entry = some event ∨ EventRead log event := by
  simp [EventRead]

theorem EventRead.mono {log later : History} {event : EventRow} (read : EventRead log event)
    (grown : log <:+ later) : EventRead later event := by
  obtain ⟨entry, member, same⟩ := read
  exact ⟨entry, grown.subset member, same⟩

theorem Fetched.mono {p : Platform} {log later : History} {signature : String} {tx : Transaction}
    (fetched : Fetched p log signature tx) (grown : log <:+ later) : Fetched p later signature tx := by
  obtain ⟨client, sig, result, parsed, saw, decoded⟩ := fetched
  exact ⟨client, sig, result, parsed, saw.mono grown, decoded⟩

theorem Verified.mono {p : Platform} {log later : History} {reference signature : String}
    {amount : Int64} {merchant : String} (verified : Verified p log reference signature amount merchant)
    (grown : log <:+ later) : Verified p later reference signature amount merchant := by
  obtain ⟨tx, sender, fetched, accepted⟩ := verified
  exact ⟨tx, sender, fetched.mono grown, accepted⟩

theorem VerifiedDirect.mono {p : Platform} {log later : History} {signature : String}
    {amount : Int64} {merchant : String} (verified : VerifiedDirect p log signature amount merchant)
    (grown : log <:+ later) : VerifiedDirect p later signature amount merchant := by
  obtain ⟨tx, sender, fetched, accepted⟩ := verified
  exact ⟨tx, sender, fetched.mono grown, accepted⟩

theorem Agreed.mono {p : Platform} {request : Request} {log later : History} {stored : InvoiceHash}
    {reference signature : String} {amount : Int64}
    (agreed : Agreed p request log stored reference signature amount) (grown : log <:+ later) :
    Agreed p request later stored reference signature amount := by
  refine ⟨agreed.read.mono grown, ?_⟩
  rcases agreed.terms with ⟨legacy, parsed, verified⟩ | ⟨v1, id, session, saw, same, terms, verified⟩
  · exact .inl ⟨legacy, parsed, verified.mono grown⟩
  · exact .inr ⟨v1, id, session, saw.mono grown, same, terms, verified.mono grown⟩

def EmailChecked (p : Platform) (log : History) (checkout : PaidCheckout) : Prop :=
  let email := normalizeEmail p (p.unmarshalMap checkout.participantData)
  email = "" ∨ email = "<nil>" ∨ ∃ earlier, log =
    ⟨.sql (.paidEmailExists checkout.eventId (some checkout.reference) email), .ok false⟩ :: earlier

structure Finalises (p : Platform) (request : Request) (log : History) (checkout : PaidCheckout) :
    Prop where
  agreed : ∃ stored, Agreed p request log stored checkout.reference checkout.signature
      checkout.amount ∧
    parseInt stored.eventId = .ok checkout.eventId ∧
    checkout.participantData = orDefault stored.participantData "\x7b\x7d"
  email : EmailChecked p log checkout

def Request.isSubmit : Request → Bool
  | .v1SubmitSignature _ => true
  | _ => false

def Request.isCancel : Request → Bool
  | .v1Cancel _ => true
  | _ => false

def Request.endpoint : Request → Option String
  | .v1Create _ => some createEndpoint
  | .v1SubmitSignature _ => some submitEndpoint
  | .v1Cancel _ => some cancelEndpoint
  | _ => none

def Request.idemKey : Request → String
  | .v1Create r => trimSpace r.idempotencyKey
  | .v1SubmitSignature r | .v1Cancel r => trimSpace r.idempotencyKey
  | _ => ""

/-- The request looks up and records its answer under these three. -/
structure KeyedBy (request : Request) (ownerEmail idemKey endpoint : String) : Prop where
  endpoint : request.endpoint = some endpoint
  key : request.idemKey = idemKey
  given : idemKey ≠ ""
  owner : ∀ r, request = .v1Create r → ownerEmail = sessionOwner r.claims

def SessionStored (log : History) (ownerEmail idemKey : String) (response : Content) : Prop :=
  ∃ session answer, log.Saw (.sql (.insertSession session)) (.ok ()) ∧
    session.ownerEmail = ownerEmail ∧ session.idempotencyKey = idemKey ∧
    response = .session answer ∧ answer.sessionID = session.id ∧ answer.reference = session.reference

def FirstRead (log : History) (id : String) (session : SessionRow) : Prop :=
  [(⟨.sql (.selectSession id), .ok (some session)⟩ : Entry Reply)] <:+ log

theorem FirstRead.saw {log : History} {id : String} {session : SessionRow}
    (read : FirstRead log id session) : log.Saw (.sql (.selectSession id)) (.ok (some session)) :=
  read.subset (List.mem_singleton_self _)

theorem FirstRead.cons {log : History} {id : String} {session : SessionRow}
    (read : FirstRead log id session) (entry : Entry Reply) : FirstRead (entry :: log) id session :=
  read.trans (List.suffix_cons _ _)

/-- What `request`, having seen `log`, must know before it issues an operation. -/
def Issues (p : Platform) (request : Request) (log : History) : Op → Prop
  | .redis (.hSet key hash) => request.opensSession = true ∧
      ∃ event reference walletAddress paymentMethod data, EventRead log event ∧
        log.Saw .newUUID reference ∧ key = redisKey reference ∧
        hash = invoiceHash p event walletAddress paymentMethod data
  | .sql (.insertSession session) => request.opensSession = true ∧
      ∃ event, EventRead log event ∧ log.Saw .newUUID session.reference ∧
        session.eventId = event.id ∧ session.amountAtomic = event.columns.amountUSDC ∧
        session.merchantWallet = event.columns.merchantWallet ∧ log.Saw .newUUID session.id ∧
        ∃ r, request = .v1Create r ∧ session.ownerEmail = sessionOwner r.claims ∧
          session.idempotencyKey = request.idemKey
  | .sql (.upsertPaidInvoice walletAddress reference signature amount) =>
      ∃ checkout, Finalises p request log checkout ∧ checkout.walletAddress = walletAddress ∧
        checkout.reference = reference ∧ checkout.signature = signature ∧ checkout.amount = amount
  | .sql (.upsertPaidCheckout checkout) => ∃ earlier,
      log = ⟨.sql (.upsertPaidInvoice checkout.walletAddress checkout.reference checkout.signature
        checkout.amount), .ok ()⟩ :: earlier ∧ Finalises p request earlier checkout
  | .sql (.insertPaidCheckout checkout) => request.isManualVerify = true ∧
      ∃ event, EventRead log event ∧ log.Saw .newUUID checkout.reference ∧
        checkout.eventId = event.id ∧ checkout.amount = event.columns.amountUSDC ∧
        VerifiedDirect p log checkout.signature checkout.amount event.columns.merchantWallet
  | .sql (.insertPaidInvoice _ _ _ _) => request.isManualVerify = true
  | .sql (.upsertErrorInvoice _ _ _ _ _) => request.isLegacyFinaliser = true
  | .sql (.setSessionState id state) => ∃ session, FirstRead log id session ∧
      session.state ≠ .paid ∧ ((state = .cancelled ∧ request.isCancel = true) ∨
        ((state = .verifying ∨ state = .failed) ∧ request.isSubmit = true))
  | .sql (.setSessionPaid id signature) => request.isV1Finaliser = true ∧
      ∃ session checkout hash, FirstRead log id session ∧ session.state ≠ .paid ∧
        log.Saw (.redis (.hGetAll (redisKey session.reference))) (.ok (some hash)) ∧
        log.Saw (.sql (.upsertPaidCheckout checkout)) (.ok ()) ∧
        checkout.reference = session.reference ∧ checkout.signature = signature
  | .sql (.selectActiveEventBySlug _) | .sql (.selectActiveEventById _) =>
      ∀ event, ¬ EventRead log event
  | .newUUID => request.opensSession = true ∨ request.isManualVerify = true
  | .sql (.insertEvent _ ownerEmail _) => ∃ claims r, request = .createEvent (some claims) r ∧
      ownerEmail = claims.email
  | .sql (.updateEvent id ownerEmail _) => (∃ body, request = .updateEvent body id ownerEmail) ∧
      ∃ earlier, log = ⟨.sql (.hasPaidDeposits id), .ok false⟩ :: earlier
  | .sql (.deleteEvent id ownerEmail) => request = .deleteEvent id ownerEmail ∧
      ∃ earlier, log = ⟨.sql (.hasPaidDeposits id), .ok false⟩ :: earlier
  | .sql (.markCheckoutPaid id _ _) | .sql (.markCheckoutFailed id) =>
      request = .recoverErrorInvoices ∧
        ∃ rows row, log.Saw (.sql .selectRecoverable) (.ok rows) ∧ row ∈ rows ∧ row.id = id
  | .redis (.del key) => request.isCancel = true →
      ∃ id session, FirstRead log id session ∧ key = redisKey session.reference
  | .sql (.loadIdempotent ownerEmail idemKey endpoint) => KeyedBy request ownerEmail idemKey endpoint
  | .sql (.saveIdempotent record) =>
      KeyedBy request record.ownerEmail record.idemKey record.endpoint ∧
        ∀ r, request = .v1Create r → SessionStored log record.ownerEmail record.idemKey record.response
  | _ => True

-- The equations are generated here, once, and not by each of the proofs below.
section
attribute [local simp] Issues
end

section Pieces
variable {p : Platform} {request : Request} {log : History}
variable {issue : History → Op → Prop}

-- The reply types are not indexed: they reduce differently at each operation.
@[simp] theorem along_sql {Result : Type} (statement : Sql)
    (next : Except Fault statement.Result → Handler Result) {done : History → Result → Prop} :
    (@bind Handler _ (no_index (Except Fault statement.Result)) _ (sql statement) next).Along issue done log ↔ issue log (.sql statement) ∧
      ∀ reply, (next reply).Along issue done (⟨.sql statement, reply⟩ :: log) :=
  Program.along_perform_bind _ _ _

@[simp] theorem along_redis {Result : Type} (command : Redis)
    (next : Except Fault command.Result → Handler Result) {done : History → Result → Prop} :
    (@bind Handler _ (no_index (Except Fault command.Result)) _ (redis command) next).Along issue done log ↔ issue log (.redis command) ∧
      ∀ reply, (next reply).Along issue done (⟨.redis command, reply⟩ :: log) :=
  Program.along_perform_bind _ _ _

@[simp] theorem along_rpc {Result : Type} (call : Rpc)
    (next : Except Fault call.Result → Handler Result) {done : History → Result → Prop} :
    (@bind Handler _ (no_index (Except Fault call.Result)) _ (rpc call) next).Along issue done log ↔ issue log (.rpc call) ∧
      ∀ reply, (next reply).Along issue done (⟨.rpc call, reply⟩ :: log) :=
  Program.along_perform_bind _ _ _

@[simp] theorem along_newUUID {Result : Type} (next : String → Handler Result)
    {done : History → Result → Prop} :
    (newUUID >>= next).Along issue done log ↔ issue log .newUUID ∧
      ∀ uuid, (next uuid).Along issue done (⟨.newUUID, uuid⟩ :: log) :=
  Program.along_perform_bind _ _ _

@[simp] theorem along_timeNow {Result : Type} (next : Time → Handler Result)
    {done : History → Result → Prop} :
    (timeNow >>= next).Along issue done log ↔ issue log .now ∧
      ∀ now, (next now).Along issue done (⟨.now, now⟩ :: log) :=
  Program.along_perform_bind _ _ _

theorem along_tryEventSlugs (asks : ∀ log slug, issue log (.sql (.eventSlugExists slug)))
    (clock : ∀ log, issue log .now) (base : String) (left : Nat) (slug : String) (log : History) :
    (tryEventSlugs base left slug).Along issue (fun _ _ => True) log := by
  induction left generalizing slug log with
  | zero => simp [tryEventSlugs, clock]
  | succ left ih =>
      simp only [tryEventSlugs, along_sql]
      refine ⟨asks _ _, ?_⟩
      rintro (fault | (_ | _))
      · simp only [along_timeNow]
        exact ⟨clock _, fun _ => ih _ _⟩
      · simp
      · simp only [along_timeNow]
        exact ⟨clock _, fun _ => ih _ _⟩

def Op.asksChain : Op → Bool
  | .rpc _ => true
  | _ => false

theorem chain_getRpcClientWithFailover {log : Log Reply} :
    getRpcClientWithFailover.Along (fun _ op => op.asksChain = true) (fun _ _ => True) log := by
  unfold getRpcClientWithFailover
  rw [along_rpc]
  refine ⟨rfl, ?_⟩
  rintro (fault | _) <;> simp

theorem chain_fetchTransaction {log : Log Reply} (signature : String) :
    (fetchTransaction p signature).Along (fun _ op => op.asksChain = true) (fun _ _ => True) log := by
  unfold fetchTransaction
  refine chain_getRpcClientWithFailover.sequence fun after client _ _ => ?_
  cases p.signatureFromBase58 signature with
  | error text => simp
  | ok sig =>
      simp only [along_rpc]
      refine ⟨rfl, ?_⟩
      rintro (fault | result) <;> simp

theorem chain_verifyTransaction {log : Log Reply} (reference signature : String) (amount : Int64) (merchant : String) :
    (verifyTransactionForMerchantWithSender p reference signature amount merchant).Along
      (fun _ op => op.asksChain = true) (fun _ _ => True) log := by
  unfold verifyTransactionForMerchantWithSender
  split
  · simp
  · refine (chain_fetchTransaction signature).sequence fun after result _ _ => ?_
    cases result <;> simp

theorem chain_verifyDirect {log : Log Reply} (signature : String) (amount : Int64) (merchant sender : String) :
    (verifyDirectTransferForMerchant p signature amount merchant sender).Along (fun _ op => op.asksChain = true)
      (fun _ _ => True) log := by
  unfold verifyDirectTransferForMerchant
  split
  · simp
  · refine (chain_fetchTransaction signature).sequence fun after result _ _ => ?_
    cases result <;> simp

theorem along_getRpcClientWithFailover :
    getRpcClientWithFailover.Along (Issues p request) (fun _ _ => True) log := by
  simp only [getRpcClientWithFailover, along_rpc, Issues, true_and]
  rintro (fault | _) <;> simp

theorem along_fetchTransaction (signature : String) :
    (fetchTransaction p signature).Along (Issues p request)
      (fun after result => ∀ tx, result = .ok tx → Fetched p after signature tx) log := by
  unfold fetchTransaction
  refine along_getRpcClientWithFailover.sequence fun after client _ _ => ?_
  cases parsed : p.signatureFromBase58 signature with
  | error text => simp
  | ok sig =>
      simp only [along_rpc, Issues, true_and]
      rintro (fault | result)
      · simp
      · simp only [Program.along_pure]
        intro tx decoded
        exact ⟨client, sig, result, parsed, by simp [Log.Saw], decoded⟩

theorem along_verifyTransaction (reference signature : String) (amount : Int64) (merchant : String) :
    (verifyTransactionForMerchantWithSender p reference signature amount merchant).Along
      (Issues p request)
      (fun after verdict => ∀ sender, verdict = .accepted sender →
        Verified p after reference signature amount merchant) log := by
  unfold verifyTransactionForMerchantWithSender
  split
  · simp
  · refine (along_fetchTransaction signature).sequence fun after result _ fetched => ?_
    cases result with
    | error text => simp
    | ok tx =>
        simp only [Program.along_pure]
        intro sender accepted
        exact ⟨tx, sender, fetched tx rfl, accepted⟩

theorem along_verifyDirect (signature : String) (amount : Int64) (merchant sender : String) :
    (verifyDirectTransferForMerchant p signature amount merchant sender).Along (Issues p request)
      (fun after verdict => verdict = .accepted () →
        VerifiedDirect p after signature amount merchant) log := by
  unfold verifyDirectTransferForMerchant
  split
  · simp
  · refine (along_fetchTransaction signature).sequence fun after result _ fetched => ?_
    cases result with
    | error text => simp
    | ok tx =>
        simp only [Program.along_pure]
        intro accepted
        exact ⟨tx, sender, fetched tx rfl, accepted⟩

theorem along_detectAmong (reference : String) (amount : Int64) (merchant : String)
    (signatures : List SignatureInfo) :
    (detectAmong p reference amount merchant signatures).Along (Issues p request)
      (fun after verdict => ∀ signature sender, verdict = .accepted (signature, sender) →
        Verified p after reference signature amount merchant) log := by
  induction signatures generalizing log with
  | nil => simp [detectAmong]
  | cons info rest ih =>
      unfold detectAmong
      split
      · exact ih
      · split
        · refine (along_verifyTransaction _ _ _ _).sequence fun after verdict _ verified => ?_
          cases verdict with
          | accepted sender =>
              simp only [Program.along_pure]
              rintro signature other same
              cases same
              exact verified sender rfl
          | rejected text => exact ih
          | panicked => simp
        · exact ih

theorem along_detectSignature (reference : String) (amount : Int64) (merchant : String) :
    (detectSignatureByReferenceForMerchant p reference amount merchant).Along (Issues p request)
      (fun after verdict => ∀ signature sender, verdict = .accepted (signature, sender) →
        Verified p after reference signature amount merchant) log := by
  unfold detectSignatureByReferenceForMerchant
  split
  · simp
  · split
    · simp
    · simp
    · refine along_getRpcClientWithFailover.sequence fun after client _ _ => ?_
      simp only [along_rpc, Issues, true_and]
      rintro (fault | signatures)
      · simp
      · exact along_detectAmong reference amount merchant signatures

/-- A check that lets the request through has just asked the database, or had
nothing to ask. -/
theorem along_checkEmail (eventID : Int64) (otherThan : Option String) (data : Option Object) :
    (checkEmail p eventID otherThan data).Along (Issues p request)
      (fun after result => result = .ok () →
        (after = log ∧ (normalizeEmail p data = "" ∨ normalizeEmail p data = "<nil>")) ∨
        after = ⟨.sql (.paidEmailExists eventID otherThan (normalizeEmail p data)), .ok false⟩ :: log)
      log := by
  unfold checkEmail
  dsimp only
  by_cases blank : normalizeEmail p data = "" ∨ normalizeEmail p data = "<nil>"
  · rw [if_pos blank, Program.along_pure]
    exact fun _ => .inl ⟨rfl, blank⟩
  · rw [if_neg blank]
    simp only [along_sql, Issues, true_and]
    rintro (fault | taken)
    · simp
    · cases taken with
      | true => simp
      | false =>
          simp only [Program.along_pure]
          exact fun _ => .inr trivial

-- What a finaliser writes, and that it answers ok only after both upserts.
theorem along_finalizePaidCheckout {stored invoiceData : InvoiceHash} {reference signature : String}
    {amount : Int64} (agreed : Agreed p request log stored reference signature amount)
    (same_event : invoiceData.eventId = stored.eventId)
    (same_data : invoiceData.participantData = stored.participantData) :
    (finalizePaidCheckout p reference signature invoiceData amount).Along (Issues p request)
      (fun after result => result = .ok () → ∃ checkout,
        after.Saw (.sql (.upsertPaidCheckout checkout)) (.ok ()) ∧
        checkout.reference = reference ∧ checkout.signature = signature) log := by
  unfold finalizePaidCheckout
  generalize parsed : parseInt invoiceData.eventId = event
  cases event with
  | error text => simp
  | ok eventID =>
    dsimp only
    generalize data_is : orDefault invoiceData.participantData "\x7b\x7d" = data
    generalize orDefault invoiceData.walletAddress "unknown_wallet" = walletAddress
    generalize orDefault invoiceData.paymentMethod "wallet" = paymentMethod
    refine (along_checkEmail eventID (some reference) _).sequence fun after result grown checked => ?_
    cases result with
    | error text => simp
    | ok _ =>
        have finalises : Finalises p request after
            ⟨eventID, walletAddress, reference, signature, amount, data, paymentMethod⟩ := by
          refine ⟨⟨stored, agreed.mono grown, ?_, ?_⟩, ?_⟩
          · rw [← same_event]
            exact parsed
          · rw [← data_is, same_data]
          · rcases checked rfl with ⟨_, blank | absent⟩ | asked
            · exact .inl blank
            · exact .inr (.inl absent)
            · exact .inr (.inr ⟨log, asked⟩)
        simp only [along_sql, Issues]
        refine ⟨⟨_, finalises, rfl, rfl, rfl, rfl⟩, ?_⟩
        rintro (fault | _)
        · simp
        · simp only [along_sql, Issues]
          refine ⟨⟨after, rfl, finalises⟩, ?_⟩
          rintro (fault | _)
          · simp
          · simp only [Program.along_pure]
            exact fun _ => ⟨_, List.mem_cons_self, rfl, rfl⟩

theorem along_getCheckoutStatus (reference : String) :
    (getCheckoutStatusByReference reference).Along (Issues p request) (fun _ _ => True) log := by
  simp only [getCheckoutStatusByReference, along_sql, Issues, true_and]
  rintro (fault | (_ | row)) <;> simp

theorem along_respondCheckoutStatus (reference : String) :
    (respondCheckoutStatus reference).Along (Issues p request) (fun _ _ => True) log :=
  (along_getCheckoutStatus reference).sequence fun _ _ _ _ => by simp

theorem along_replayed {ownerEmail idemKey endpoint : String}
    (keyed : idemKey ≠ "" → KeyedBy request ownerEmail idemKey endpoint) :
    (replayed ownerEmail idemKey endpoint).Along (Issues p request)
      (fun after _ => ∀ event, EventRead after event → EventRead log event) log := by
  unfold replayed loadIdempotentResponse
  split
  · next given =>
    split
    · simp
    · simp only [along_sql, Issues]
      refine ⟨keyed given, ?_⟩
      rintro (fault | (_ | response)) <;> simp [eventRead_cons, readEvent]
  · simp

theorem replayed_saw (ownerEmail idemKey endpoint : String) :
    (replayed ownerEmail idemKey endpoint).Along (fun _ _ => True)
      (fun after response => ∀ content, response = some content →
        after.Saw (.sql (.loadIdempotent ownerEmail idemKey endpoint)) (.ok (some content))) log := by
  unfold replayed loadIdempotentResponse
  split
  · split
    · simp
    · simp only [along_sql, true_and]
      rintro (fault | (_ | response)) <;> simp [Log.Saw]
  · simp

theorem along_selectSessionEvent (eventID : Int64) (slug : String)
    (unread : ∀ event, ¬ EventRead log event) :
    (selectSessionEvent eventID slug).Along (Issues p request)
      (fun after result => ∀ event, result = .ok (some event) → EventRead after event) log := by
  unfold selectSessionEvent
  split
  · simp only [sql, Program.perform, Program.along_call, Program.along_ret, Issues]
    refine ⟨unread, ?_⟩
    rintro reply event rfl
    exact ⟨_, List.mem_cons_self, rfl⟩
  · simp only [sql, Program.perform, Program.along_call, Program.along_ret, Issues]
    refine ⟨unread, ?_⟩
    rintro reply event rfl
    exact ⟨_, List.mem_cons_self, rfl⟩

theorem along_remember {ownerEmail idemKey endpoint : String} {payload : Content}
    (keyed : idemKey ≠ "" → KeyedBy request ownerEmail idemKey endpoint)
    (opened : ∀ r, request = .v1Create r → SessionStored log ownerEmail idemKey payload) :
    (remember ownerEmail idemKey endpoint payload).Along (Issues p request) (fun _ _ => True) log := by
  unfold remember saveIdempotentResponse
  split
  · next given =>
    split
    · simp
    · simp only [along_sql, Issues]
      exact ⟨⟨keyed given, opened⟩, by simp⟩
  · simp

theorem along_emitPaymentWebhook (event : String) (payload : List (String × String)) :
    (emitPaymentWebhook p event payload).Along (Issues p request) (fun _ _ => True) log := by
  unfold emitPaymentWebhook
  split
  · simp
  · simp [Issues, Program.perform]

end Pieces

section Handlers
variable {p : Platform}

theorem eventRead_nil (event : EventRow) : ¬ EventRead [] event := by
  simp [EventRead, readEvent]

abbrev Careful (p : Platform) (request : Request) (program : Handler Answer) : Prop :=
  program.Along (Issues p request) (fun _ _ => True) []

theorem careful_cancelInvoice (r : HttpRequest ReferenceRequest) :
    Careful p (.cancelInvoice r) (cancelCheckoutInvoice p r) := by
  unfold cancelCheckoutInvoice
  split
  · simp
  · split
    · split
      · simp
      · simp [Issues, Request.isCancel]
    · simp

theorem careful_confirm (r : HttpRequest SignatureRequest) :
    Careful p (.confirm r) (confirmCheckoutPayment p r) := by
  unfold confirmCheckoutPayment
  split
  · simp
  · split
    · split
      · simp
      · simp only [along_redis, Issues, true_and]
        rintro (fault | (_ | stored))
        · simp
        · simp
        · dsimp only
          generalize parsed : parseInt stored.amount = read
          cases read with
          | error text => simp
          | ok amount =>
              dsimp only
              split
              · simp
              · refine (along_verifyTransaction _ _ _ _).sequence fun after verdict grown verified => ?_
                cases verdict with
                | panicked => simp
                | rejected text => simp [Issues, Request.isLegacyFinaliser]
                | accepted sender =>
                    have agreed : Agreed p (.confirm r) after stored _ _ amount :=
                      ⟨grown.subset List.mem_cons_self, .inl ⟨rfl, parsed, verified sender rfl⟩⟩
                    refine (along_finalizePaidCheckout agreed rfl rfl).sequence
                      fun later result _ _ => ?_
                    cases result with
                    | error text => simp
                    | ok _ =>
                        simp only [along_redis, Issues]
                        exact ⟨by simp [Request.isCancel], fun _ => along_respondCheckoutStatus _⟩
    · simp

theorem fillSender_fields (stored : InvoiceHash) (sender : String) :
    (fillSender stored sender).eventId = stored.eventId ∧
      (fillSender stored sender).participantData = stored.participantData := by
  unfold fillSender
  split <;> exact ⟨rfl, rfl⟩

theorem careful_recheckUnpaid (r : HttpRequest SignatureRequest) (reference signature : String)
    (log : History) :
    (recheckCheckoutPayment.unpaid p reference signature).Along (Issues p (.recheck r))
      (fun _ _ => True) log := by
  unfold recheckCheckoutPayment.unpaid
  simp only [along_redis, Issues, true_and]
  rintro (fault | (_ | stored))
  · simp
  · simp
  · dsimp only
    generalize parsed : parseInt stored.amount = read
    cases read with
    | error text => simp
    | ok amount =>
        dsimp only
        split
        · simp
        · split
          · simp
          · refine (along_verifyTransaction _ _ _ _).sequence fun after verdict grown verified => ?_
            cases verdict with
            | panicked => simp
            | rejected text => simp
            | accepted sender =>
                have agreed : Agreed p (.recheck r) after stored reference signature amount :=
                  ⟨grown.subset List.mem_cons_self, .inl ⟨rfl, parsed, verified sender rfl⟩⟩
                refine (along_finalizePaidCheckout agreed rfl rfl).sequence fun later result _ _ => ?_
                cases result with
                | error text => simp
                | ok _ =>
                    simp only [along_redis, Issues]
                    exact ⟨by simp [Request.isCancel], fun _ => along_respondCheckoutStatus _⟩

theorem careful_recheck (r : HttpRequest SignatureRequest) :
    Careful p (.recheck r) (recheckCheckoutPayment p r) := by
  unfold recheckCheckoutPayment
  split
  · simp
  · split
    · split
      · simp
      · simp only [along_sql, Issues, true_and]
        rintro (fault | (_ | row))
        · exact careful_recheckUnpaid _ _ _ _
        · exact careful_recheckUnpaid _ _ _ _
        · dsimp only
          split
          · exact along_respondCheckoutStatus _
          · exact careful_recheckUnpaid _ _ _ _
    · simp

theorem careful_detectUnpaid (r : HttpRequest ReferenceRequest) (reference : String)
    (log : History) :
    (detectCheckoutPayment.unpaid p reference).Along (Issues p (.detect r)) (fun _ _ => True) log := by
  unfold detectCheckoutPayment.unpaid
  simp only [along_redis, Issues, true_and]
  rintro (fault | (_ | stored))
  · simp
  · simp
  · dsimp only
    generalize parsed : parseInt stored.amount = read
    cases read with
    | error text => simp
    | ok amount =>
        dsimp only
        split
        · simp
        · refine (along_detectSignature _ _ _).sequence fun after verdict grown verified => ?_
          cases verdict with
          | panicked => simp
          | rejected text => simp
          | accepted found =>
              obtain ⟨signature, sender⟩ := found
              have agreed : Agreed p (.detect r) after stored reference signature amount :=
                ⟨grown.subset List.mem_cons_self, .inl ⟨rfl, parsed, verified signature sender rfl⟩⟩
              obtain ⟨same_event, same_data⟩ := fillSender_fields stored sender
              refine (along_finalizePaidCheckout agreed same_event same_data).sequence
                fun later result _ _ => ?_
              cases result with
              | error text => simp
              | ok _ =>
                  simp only [along_redis, Issues]
                  exact ⟨by simp [Request.isCancel], fun _ => along_respondCheckoutStatus _⟩

theorem careful_detect (r : HttpRequest ReferenceRequest) :
    Careful p (.detect r) (detectCheckoutPayment p r) := by
  unfold detectCheckoutPayment
  split
  · simp
  · split
    · dsimp only
      split
      · simp
      · refine (along_getCheckoutStatus _).sequence fun after status _ _ => ?_
        cases status with
        | none => exact careful_detectUnpaid _ _ _
        | some existing =>
            dsimp only
            split
            · simp
            · exact careful_detectUnpaid _ _ _
    · simp

theorem careful_manualVerify (r : HttpRequest ManualVerifyRequest) :
    Careful p (.manualVerify r) (manualVerifyCheckoutPayment p r) := by
  unfold manualVerifyCheckoutPayment
  split
  · simp
  · split
    · dsimp only
      split
      · simp
      · simp only [along_sql, Issues]
        refine ⟨eventRead_nil, ?_⟩
        rintro (fault | (_ | event))
        · simp
        · simp
        · refine (along_verifyDirect _ _ _ _).sequence fun after verdict grown verified => ?_
          cases verdict with
          | panicked => simp
          | rejected text => simp
          | accepted _ =>
              simp only [along_newUUID, along_sql, Issues, Program.along_pure]
              refine ⟨.inr rfl, fun reference => ⟨rfl, fun _ => ⟨⟨rfl, event, ?_, ?_, rfl, rfl, ?_⟩,
                fun _ => trivial⟩⟩⟩
              · have read : EventRead after event := ⟨_, grown.subset List.mem_cons_self, rfl⟩
                exact read.mono ((List.suffix_cons _ _).trans (List.suffix_cons _ _))
              · exact List.mem_cons_of_mem _ List.mem_cons_self
              · exact (verified rfl).mono
                  ((List.suffix_cons _ _).trans (List.suffix_cons _ _))
    · simp

theorem careful_invoice {request : Request} {log : History} {event : EventRow}
    (opens : request.opensSession = true) (read : EventRead log event)
    (walletAddress paymentMethod : String) (data : Option Object) :
    (createCheckoutInvoice.invoice p event walletAddress paymentMethod data).Along
      (Issues p request) (fun _ _ => True) log := by
  unfold createCheckoutInvoice.invoice
  simp only [along_newUUID, along_redis, Issues]
  refine ⟨.inl opens, fun reference => ⟨⟨opens, event, reference, walletAddress, paymentMethod, data,
    read.mono (List.suffix_cons _ _), List.mem_cons_self, rfl, rfl⟩, ?_⟩⟩
  rintro (fault | _)
  · simp
  · simp only [along_redis, Issues, true_and]
    rintro (fault | _) <;> simp

theorem careful_createInvoice (r : HttpRequest CreateCheckoutInvoiceRequest) :
    Careful p (.createInvoice r) (createCheckoutInvoice p r) := by
  unfold createCheckoutInvoice
  split
  · simp
  · split
    · next req _ =>
      dsimp only
      split
      · simp
      · simp only [along_sql, Issues]
        refine ⟨eventRead_nil, ?_⟩
        rintro (fault | (_ | event))
        · simp
        · simp
        · simp only [along_timeNow, Issues, true_and]
          intro now
          have read : EventRead [⟨.now, now⟩, ⟨.sql (.selectActiveEventBySlug (trimSpace req.slug)),
              .ok (some event)⟩] event :=
            ⟨_, List.mem_cons_of_mem _ List.mem_cons_self, rfl⟩
          split
          · simp
          · split
            · simp
            · refine (along_checkEmail _ _ _).sequence fun after result grown _ => ?_
              have invoiced := @careful_invoice p (.createInvoice r) _ _ rfl (read.mono grown)
              cases result with
              | error text => simp
              | ok _ =>
                  dsimp only
                  split
                  · split
                    · simp
                    · split
                      · simp
                      · exact invoiced _ _ _
                  · split
                    · split
                      · simp
                      · exact invoiced _ _ _
                    · simp
    · simp

theorem careful_session {r : V1CreateRequest} {log : History} {event : EventRow}
    (read : EventRead log event) (walletAddress paymentMethod : String) (data : Option Object) :
    (v1CreatePaymentSession.session p event (sessionOwner r.claims) (trimSpace r.idempotencyKey)
      walletAddress paymentMethod data).Along (Issues p (.v1Create r)) (fun _ _ => True) log := by
  unfold v1CreatePaymentSession.session
  simp only [along_newUUID, along_timeNow, along_redis, Issues, true_and]
  refine ⟨.inl rfl, fun id => ⟨.inl rfl, fun reference now => ⟨⟨rfl, event, reference,
    walletAddress, paymentMethod, data, ?_, ?_, rfl, rfl⟩, ?_⟩⟩⟩
  · exact read.mono ⟨[_, _, _], rfl⟩
  · exact List.mem_cons_of_mem _ List.mem_cons_self
  · rintro (fault | _)
    · simp
    · simp only [along_redis, along_sql, Issues, true_and]
      intro expired
      refine ⟨⟨rfl, event, read.mono ⟨[_, _, _, _, _], rfl⟩, by simp [Log.Saw], rfl, rfl, rfl,
        by simp [Log.Saw], r, rfl, rfl, rfl⟩, ?_⟩
      rintro (fault | _)
      · simp
      · refine (along_remember (fun given => ⟨rfl, rfl, given, ?_⟩) ?_).sequence fun _ _ _ _ => ?_
        · rintro _ ⟨⟩
          rfl
        · intro _ _
          exact ⟨_, _, List.mem_cons_self, rfl, rfl, rfl, rfl, rfl⟩
        · exact (along_emitPaymentWebhook _ _).sequence fun _ _ _ _ => by simp

theorem careful_v1Create (r : V1CreateRequest) :
    Careful p (.v1Create r) (v1CreatePaymentSession p r) := by
  unfold v1CreatePaymentSession
  split
  · simp
  · split
    · next req _ =>
      have keyed (given : trimSpace r.idempotencyKey ≠ "") : KeyedBy (.v1Create r)
          (sessionOwner r.claims) (trimSpace r.idempotencyKey) createEndpoint := by
        refine ⟨rfl, rfl, given, ?_⟩
        rintro _ ⟨⟩
        rfl
      refine (along_replayed keyed).sequence fun first response _ unread => ?_
      cases response with
      | some content => simp
      | none =>
          refine (along_selectSessionEvent _ _ fun event read =>
            eventRead_nil event (unread event read)).sequence fun second selected _ found => ?_
          rcases selected with fault | (_ | event)
          · simp
          · simp
          · have read := found event rfl
            simp only [along_timeNow, Issues, true_and]
            intro now
            split
            · simp
            · split
              · simp
              · refine (along_checkEmail _ _ _).sequence fun after result grown _ => ?_
                have opened := @careful_session p r _ _
                  (read.mono ((List.suffix_cons _ _).trans grown))
                cases result with
                | error text => simp
                | ok _ =>
                    dsimp only
                    split
                    · simp
                    · split
                      · simp
                      · split
                        · simp
                        · split
                          · simp
                          · exact opened _ _ _
    · simp

theorem careful_v1Status (r : V1Request) :
    Careful p (.v1Status r) (v1GetPaymentSessionStatus p r) := by
  unfold v1GetPaymentSessionStatus
  split
  · simp
  · dsimp only
    split
    · simp
    · simp only [along_sql, Issues, true_and]
      rintro (fault | (_ | session)) <;> simp

theorem careful_v1WalletInstructions (r : V1Request) :
    Careful p (.v1WalletInstructions r) (v1GetWalletInstructions p r) := by
  unfold v1GetWalletInstructions
  split
  · simp
  · simp only [along_sql, Issues, true_and]
    rintro (fault | (_ | session))
    · simp
    · simp
    · dsimp only
      split <;> simp

theorem careful_v1Qr (r : V1Request) : Careful p (.v1Qr r) (v1GetQrSession p r) := by
  unfold v1GetQrSession
  split
  · simp
  · simp only [along_sql, Issues, true_and]
    rintro (fault | (_ | session))
    · simp
    · simp
    · dsimp only
      split <;> simp

theorem careful_v1Verify (r : V1Request) : Careful p (.v1Verify r) (v1VerifyPaymentSession r) := by
  unfold v1VerifyPaymentSession
  split
  · simp
  · simp only [along_sql, Issues, true_and]
    rintro (fault | (_ | session))
    · simp
    · simp
    · dsimp only
      split
      · simp
      · refine (along_getCheckoutStatus _).sequence fun _ status _ _ => ?_
        cases status <;> simp

theorem careful_v1Cancel (r : V1Request) :
    Careful p (.v1Cancel r) (v1CancelPaymentSession p r) := by
  unfold v1CancelPaymentSession
  split
  · simp
  · simp only [along_sql, Issues, true_and]
    rintro (fault | (_ | session))
    · simp
    · simp
    · dsimp only
      have keyed (given : trimSpace r.idempotencyKey ≠ "") : KeyedBy (.v1Cancel r)
          session.ownerEmail (trimSpace r.idempotencyKey) cancelEndpoint :=
        ⟨rfl, rfl, given, nofun⟩
      refine (along_replayed keyed).sequence fun after response grown _ => ?_
      have read : FirstRead after _ session := grown
      cases response with
      | some content => simp
      | none =>
          dsimp only
          split
          · simp
          · next unpaid =>
            simp only [along_sql, along_redis, Issues, true_and]
            refine ⟨⟨session, read, unpaid, .inl rfl⟩, fun _ _ => ⟨fun _ => ?_, fun _ => ?_⟩⟩
            · exact ⟨_, session, (read.cons _).cons _, rfl⟩
            · refine (along_remember keyed nofun).sequence fun _ _ _ _ => ?_
              exact (along_emitPaymentWebhook _ _).sequence fun _ _ _ _ => by simp

-- The writes of a failed submission stay within the session it has read.
theorem along_failAttempt {r : V1Request} {log : History} {id : String} {session : SessionRow}
    (read : FirstRead log id session) (unpaid : session.state ≠ .paid) (signature text : String) :
    (failAttempt id signature text).Along (Issues p (.v1SubmitSignature r)) (fun _ _ => True) log := by
  unfold failAttempt
  simp only [along_sql, Issues, true_and]
  intro reply
  exact ⟨⟨session, read.cons _, unpaid, .inr ⟨.inr trivial, rfl⟩⟩, by simp⟩

theorem along_settleSession {request : Request} {log : History} {id signature : String}
    {session : SessionRow} {checkout : PaidCheckout} {hash : InvoiceHash}
    (v1 : request.isV1Finaliser = true) (not_cancel : request.isCancel = false)
    (read : FirstRead log id session) (unpaid : session.state ≠ .paid)
    (cached : log.Saw (.redis (.hGetAll (redisKey session.reference))) (.ok (some hash)))
    (upserted : log.Saw (.sql (.upsertPaidCheckout checkout)) (.ok ()))
    (same : checkout.reference = session.reference ∧ checkout.signature = signature) :
    (settleSession id signature session.reference).Along (Issues p request) (fun _ _ => True)
      log := by
  unfold settleSession
  simp only [along_sql, along_redis, Issues, true_and]
  intro attempted
  exact ⟨⟨v1, session, checkout, hash, read.cons _, unpaid, List.mem_cons_of_mem _ cached,
    List.mem_cons_of_mem _ upserted, same.1, same.2⟩, by simp [not_cancel]⟩

theorem careful_v1SubmitSignature (r : V1Request) :
    Careful p (.v1SubmitSignature r) (v1SubmitSignature p r) := by
  unfold v1SubmitSignature
  split
  · simp
  · dsimp only
    split
    · split
      · simp
      · simp only [along_sql, Issues, true_and]
        rintro (fault | (_ | session))
        · simp
        · simp
        · dsimp only
          have keyed (given : trimSpace r.idempotencyKey ≠ "") : KeyedBy (.v1SubmitSignature r)
              session.ownerEmail (trimSpace r.idempotencyKey) submitEndpoint :=
            ⟨rfl, rfl, given, nofun⟩
          refine (along_replayed keyed).sequence fun first response seen _ => ?_
          have read : FirstRead first _ session := seen
          cases response with
          | some content => simp
          | none =>
              dsimp only
              split
              · simp
              · next payable =>
                have unpaid : session.state ≠ .paid := by
                  intro paid
                  simp [paid] at payable
                simp only [along_sql, along_redis, Issues, true_and]
                refine ⟨⟨session, read, unpaid, .inr ⟨.inl trivial, rfl⟩⟩, fun _ => ?_⟩
                rintro (fault | (_ | stored))
                · simp
                · simp
                · refine (along_verifyTransaction _ _ _ _).sequence fun after verdict grown verified => ?_
                  have cached : Log.Saw after (.redis (.hGetAll (redisKey session.reference)))
                      (.ok (some stored)) := grown.subset List.mem_cons_self
                  have read : FirstRead after _ session := ((read.cons _).cons _).trans grown
                  cases verdict with
                  | panicked => simp
                  | rejected text =>
                      refine (along_failAttempt read unpaid _ _).sequence fun _ _ _ _ => ?_
                      exact (along_emitPaymentWebhook _ _).sequence fun _ _ _ _ => by simp
                  | accepted sender =>
                      have agreed : Agreed p (.v1SubmitSignature r) after stored session.reference
                          (trimSpace _) session.amountAtomic :=
                        ⟨cached, .inr ⟨rfl, _, session, read.saw, rfl, rfl,
                          verified sender rfl⟩⟩
                      refine (along_finalizePaidCheckout agreed rfl rfl).sequence
                        fun later result further upserted => ?_
                      have read : FirstRead later _ session := read.trans further
                      cases result with
                      | error text =>
                          refine (along_failAttempt read unpaid _ _).sequence fun _ _ _ _ => ?_
                          exact (along_emitPaymentWebhook _ _).sequence fun _ _ _ _ => by simp
                      | ok _ =>
                          obtain ⟨checkout, wrote, same⟩ := upserted rfl
                          refine (along_settleSession rfl rfl read unpaid (cached.mono further) wrote same).sequence
                            fun _ _ _ _ => ?_
                          refine (along_getCheckoutStatus _).sequence fun _ _ _ _ => ?_
                          refine (along_remember keyed nofun).sequence fun _ _ _ _ => ?_
                          exact (along_emitPaymentWebhook _ _).sequence fun _ _ _ _ => by simp
    · simp

theorem careful_v1Detect (r : V1Request) : Careful p (.v1Detect r) (v1DetectPayment p r) := by
  unfold v1DetectPayment
  split
  · simp
  · simp only [along_sql, Issues, true_and]
    rintro (fault | (_ | session))
    · simp
    · simp
    · dsimp only
      split
      · exact along_respondCheckoutStatus _
      · next unpaid =>
        simp only [along_redis, Issues, true_and]
        rintro (fault | (_ | stored))
        · simp
        · simp
        · refine (along_detectSignature _ _ _).sequence fun after verdict grown verified => ?_
          have cached : Log.Saw after (.redis (.hGetAll (redisKey session.reference)))
              (.ok (some stored)) := grown.subset List.mem_cons_self
          have read : FirstRead after _ session := List.IsSuffix.trans ⟨[_], rfl⟩ grown
          cases verdict with
          | panicked => simp
          | rejected text =>
              exact (along_emitPaymentWebhook _ _).sequence fun _ _ _ _ => by simp
          | accepted found =>
              obtain ⟨signature, sender⟩ := found
              have agreed : Agreed p (.v1Detect r) after stored session.reference signature
                  session.amountAtomic :=
                ⟨cached, .inr ⟨rfl, _, session, read.saw, rfl, rfl,
                  verified signature sender rfl⟩⟩
              obtain ⟨same_event, same_data⟩ := fillSender_fields stored sender
              refine (along_finalizePaidCheckout agreed same_event same_data).sequence
                fun later result further upserted => ?_
              cases result with
              | error text => simp
              | ok _ =>
                  obtain ⟨checkout, wrote, same⟩ := upserted rfl
                  refine (along_settleSession rfl rfl (read.trans further) unpaid
                    (cached.mono further) wrote same).sequence
                    fun _ _ _ _ => ?_
                  refine (along_getCheckoutStatus _).sequence fun _ _ _ _ => ?_
                  exact (along_emitPaymentWebhook _ _).sequence fun _ _ _ _ => by simp

theorem careful_createEvent (claims : Option AuthClaims) (r : HttpRequest CreateEventRequest) :
    Careful p (.createEvent claims r) (createEvent p claims r) := by
  unfold createEvent
  split
  · simp
  · split
    · split
      · simp
      · split
        · split
          · simp
          · dsimp only
            split
            · simp
            · refine (along_tryEventSlugs (by simp [Issues]) (by simp [Issues]) _ _ _ _).sequence
                fun _ slug _ _ => ?_
              simp only [along_sql, Issues]
              refine ⟨⟨_, _, rfl, rfl⟩, ?_⟩
              rintro (fault | id) <;> simp
        · simp
    · simp

theorem careful_updateEvent (body : Option CreateEventRequest) (eventID : Int64)
    (ownerEmail : String) :
    Careful p (.updateEvent body eventID ownerEmail) (updateEvent p body eventID ownerEmail) := by
  unfold updateEvent
  split
  · split
    · simp
    · simp only [along_sql, Issues, true_and]
      rintro (fault | (_ | _))
      · simp
      · dsimp only
        split
        · simp
        · simp only [along_sql, Issues]
          refine ⟨⟨⟨_, rfl⟩, [], rfl⟩, ?_⟩
          rintro (fault | affected) <;> simp
      · simp
  · simp

theorem careful_deleteEvent (eventID : Int64) (ownerEmail : String) :
    Careful p (.deleteEvent eventID ownerEmail) (deleteEvent eventID ownerEmail) := by
  unfold deleteEvent
  simp only [along_sql, Issues, true_and]
  rintro (fault | (_ | _))
  · simp
  · simp only [along_sql, Issues]
    refine ⟨⟨trivial, [], rfl⟩, ?_⟩
    rintro (fault | affected) <;> simp
  · simp

theorem careful_recoverRows {log : History} {all : List CheckoutRecoveryRow}
    (rows : List CheckoutRecoveryRow) (read : log.Saw (.sql .selectRecoverable) (.ok all))
    (among : rows ⊆ all) :
    (recoverRows p rows).Along (Issues p .recoverErrorInvoices) (fun _ _ => True) log := by
  induction rows generalizing log with
  | nil => simp [recoverRows]
  | cons row rest ih =>
      obtain ⟨here, later⟩ := List.cons_subset.mp among
      unfold recoverRows
      refine (along_verifyTransaction _ _ _ _).sequence fun after verdict grown _ => ?_
      have read := read.mono grown
      cases verdict with
      | accepted sender =>
          simp only [along_sql, Issues]
          exact ⟨⟨trivial, all, row, read, here, rfl⟩, fun _ => ih (List.mem_cons_of_mem _ read) later⟩
      | rejected text =>
          simp only [along_timeNow, Issues, true_and]
          intro now
          split
          · simp only [along_sql, Issues]
            exact ⟨⟨trivial, all, row, List.mem_cons_of_mem _ read, here, rfl⟩, fun _ =>
              ih (List.mem_cons_of_mem _ (List.mem_cons_of_mem _ read)) later⟩
          · exact ih (List.mem_cons_of_mem _ read) later
      | panicked => simp

theorem careful_recover : Careful p .recoverErrorInvoices (recoverErrorInvoices p) := by
  unfold recoverErrorInvoices
  simp only [along_sql, Issues, true_and]
  rintro (fault | rows)
  · simp
  · exact careful_recoverRows rows List.mem_cons_self (List.Subset.refl rows)

theorem handlers_careful (request : Request) : Careful p request (handler p request) := by
  cases request with
  | createInvoice r => exact careful_createInvoice r
  | cancelInvoice r => exact careful_cancelInvoice r
  | confirm r => exact careful_confirm r
  | recheck r => exact careful_recheck r
  | manualVerify r => exact careful_manualVerify r
  | detect r => exact careful_detect r
  | v1Create r => exact careful_v1Create r
  | v1Status r => exact careful_v1Status r
  | v1WalletInstructions r => exact careful_v1WalletInstructions r
  | v1SubmitSignature r => exact careful_v1SubmitSignature r
  | v1Cancel r => exact careful_v1Cancel r
  | v1Verify r => exact careful_v1Verify r
  | v1Qr r => exact careful_v1Qr r
  | v1Detect r => exact careful_v1Detect r
  | createEvent claims r => exact careful_createEvent claims r
  | updateEvent body eventID ownerEmail => exact careful_updateEvent body eventID ownerEmail
  | deleteEvent eventID ownerEmail => exact careful_deleteEvent eventID ownerEmail
  | recoverErrorInvoices => exact careful_recover

end Handlers

section Serving
open Machine
variable {p : Platform} {cfg after : Service} {label : ServiceLabel}

/-- Every request being served has the history its operations need. -/
abbrev Warranted (p : Platform) (cfg : Service) : Prop :=
  Disciplined (Issues p) (fun _ _ _ => True) cfg

theorem warranted_start (start : cfg.threads = []) : Warranted p cfg := by
  simp [Disciplined, start]

theorem warranted_next (warranted : Warranted p cfg)
    (stepped : (machine p).next cfg label = some after) : Warranted p after :=
  disciplined_next (fun request => handlers_careful request) warranted stepped

-- Where no event may be deleted, no request gets to a DELETE.
theorem no_deleteEvent (warranted : Warranted p cfg)
    (served : Served Request.keepsEvents cfg) {thread : ServiceThread} (present : thread ∈ cfg.threads)
    {id : Int64} {ownerEmail : String} : ¬ thread.Issues (.sql (.deleteEvent id ownerEmail)) := by
  intro suspended
  obtain ⟨request, _⟩ := warranted.issues present suspended
  have offered := served thread present
  rw [request] at offered
  cases offered

end Serving

end Payknot
