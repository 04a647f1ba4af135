import Payknot.Checkout

/-! `v1_payment.go`: the payment session endpoints. An authenticated caller is
`claims`; the routes accept anonymous ones as well. -/
namespace Payknot
open GoText Interleaving

/-- `AuthClaims`, of which these handlers read the e-mail only. -/
structure AuthClaims where
  email : String

structure V1CreatePaymentSessionRequest where
  eventID : Int64
  slug : String
  paymentMethod : String
  walletAddress : String
  participantData : Option Object

structure V1CreateRequest where
  method : Method
  claims : Option AuthClaims
  idempotencyKey : String
  body : Option V1CreatePaymentSessionRequest

/-- A request to a subroute of one session; only submit-signature has a body. -/
structure V1Request where
  method : Method
  path : String
  idempotencyKey : String
  signature : Option String

def sessionID (path suffix : String) : String :=
  trimSuffix (trimSuffix (trimSpace (trimPrefix path "/api/v1/payment-sessions/")) suffix) "/"

def loadIdempotentResponse (ownerEmail idemKey endpoint : String) : Handler (Option Content) := do
  if trimSpace ownerEmail = "" ∨ trimSpace idemKey = "" ∨ trimSpace endpoint = "" then return none
  match ← sql (.loadIdempotent ownerEmail idemKey endpoint) with
  | .ok (some response) => return some response
  | _ => return none

def saveIdempotentResponse (ownerEmail idemKey endpoint : String) (payload : Content) :
    Handler Unit := do
  if trimSpace ownerEmail = "" ∨ trimSpace idemKey = "" ∨ trimSpace endpoint = "" then return ()
  let _ ← sql (.saveIdempotent ⟨ownerEmail, idemKey, endpoint, payload⟩)

/-- Both helpers stand behind `if idemKey != ""`. -/
def replayed (ownerEmail idemKey endpoint : String) : Handler (Option Content) :=
  if idemKey ≠ "" then loadIdempotentResponse ownerEmail idemKey endpoint else return none

def remember (ownerEmail idemKey endpoint : String) (payload : Content) : Handler Unit :=
  if idemKey ≠ "" then saveIdempotentResponse ownerEmail idemKey endpoint payload else return ()

def emitPaymentWebhook (p : Platform) (event : String) (payload : List (String × String)) :
    Handler Unit := do
  if trimSpace p.webhookURL = "" ∨ trimSpace event = "" then return ()
  let occurredAt ← timeNow
  Program.perform (Op.postWebhook event occurredAt payload)

def createEndpoint : String := "v1:create-payment-session"
def submitEndpoint : String := "v1:submit-signature"
def cancelEndpoint : String := "v1:cancel-session"

def sessionOwner (claims : Option AuthClaims) : String :=
  match claims with
  | some claims => if trimSpace claims.email ≠ "" then trimSpace claims.email else "public_checkout"
  | none => "public_checkout"

def selectSessionEvent (eventID : Int64) (slug : String) : Handler (Except Fault (Option EventRow)) :=
  if eventID > 0 then sql (.selectActiveEventById eventID) else sql (.selectActiveEventBySlug slug)

def v1CreatePaymentSession (p : Platform) (r : V1CreateRequest) : Handler Answer := do
  if r.method ≠ .post then return httpError "Method not allowed" 405
  let ownerEmail := sessionOwner r.claims
  let some req := r.body | return httpError "Invalid request body" 400
  let paymentMethod := trimSpace req.paymentMethod
  let walletAddress := trimSpace req.walletAddress
  let idemKey := trimSpace r.idempotencyKey
  match ← replayed ownerEmail idemKey createEndpoint with
  | some response => return .responded 200 response
  | none =>
      match ← selectSessionEvent req.eventID (trimSpace req.slug) with
      | .ok (some event) =>
          let now ← timeNow
          if event.columns.checkoutExpiresAt < now then return httpError "Checkout has expired" 410
          match validateParticipantData p
              (decodeParticipantFields p event.columns.participantFormSchema) req.participantData with
          | .error text => return httpError text 400
          | .ok _ =>
              match ← ensureParticipantEmailAvailable p event.id req.participantData with
              | .error text => return httpError text 409
              | .ok _ =>
                  let methods := decodePaymentMethods event.columns.paymentMethods
                  if paymentMethod = "wallet" ∧ !methods.wallet then
                    return httpError "wallet method disabled" 400
                  if paymentMethod = "qr" ∧ !methods.qr then
                    return httpError "qr method disabled" 400
                  if paymentMethod ≠ "wallet" ∧ paymentMethod ≠ "qr" then
                    return httpError "invalid payment method" 400
                  if paymentMethod = "wallet" ∧ !isValidWalletAddress p walletAddress then
                    return httpError "walletAddress is required for wallet" 400
                  session event ownerEmail idemKey walletAddress paymentMethod req.participantData
      | _ => return httpError "Event not found" 404
where
  /-- From the first `uuid.NewString` on. -/
  session (event : EventRow) (ownerEmail idemKey walletAddress paymentMethod : String)
      (participantData : Option Object) : Handler Answer := do
    let sessionID ← newUUID
    let reference ← newUUID
    let now ← timeNow
    let expiresAt := now + 20 * minute
    match ← redis (.hSet (redisKey reference)
        (invoiceHash p event walletAddress paymentMethod participantData)) with
    | .error _ => return httpError "Failed to create session" 500
    | .ok _ =>
        let _ ← redis (.expire (redisKey reference) (20 * minute))
        match ← sql (.insertSession ⟨sessionID, event.id, ownerEmail, p.marshalMap participantData,
            walletAddress, paymentMethod, reference, event.columns.amountUSDC, usdcMintAddress p,
            event.columns.merchantWallet, idemKey, expiresAt⟩) with
        | .error _ => return httpError "Failed to persist session" 500
        | .ok _ =>
            let resp : V1PaymentSessionResponse := ⟨sessionID, reference, "awaiting_payment",
              paymentMethod, event.columns.amountUSDC, usdcMintAddress p, expiresAt⟩
            remember ownerEmail idemKey createEndpoint (.session resp)
            emitPaymentWebhook p "payment.pending" [("sessionId", sessionID),
              ("reference", reference), ("state", "awaiting_payment"), ("method", paymentMethod)]
            return .responded 200 (.session resp)

def SessionRow.response (row : SessionRow) : V1PaymentSessionResponse :=
  ⟨row.id, row.reference, row.state.text, row.paymentMethod, row.amountAtomic, row.mint,
    row.expiresAt⟩

def v1GetPaymentSessionStatus (p : Platform) (r : V1Request) : Handler Answer := do
  if r.method ≠ .get then return httpError "Method not allowed" 405
  let id := sessionID r.path "/status"
  if !p.uuidParse id then return httpError "invalid session id" 400
  match ← sql (.selectSession id) with
  | .ok (some session) => return .responded 200 (.session session.response)
  | _ => return httpError "session not found" 404

def v1GetWalletInstructions (p : Platform) (r : V1Request) : Handler Answer := do
  if r.method ≠ .post then return httpError "Method not allowed" 405
  match ← sql (.selectSession (sessionID r.path "/wallet-instructions")) with
  | .ok (some session) =>
      if session.state ≠ .awaitingPayment then return httpError "session is not payable" 409
      return .responded 200 (.walletInstructions session.reference session.merchantWallet
        session.amountAtomic (usdcMintAddress p) networkFromMint)
  | _ => return httpError "session not found" 404

def failAttempt (id signature error : String) : Handler Unit := do
  let _ ← sql (.insertFailedAttempt id signature (truncateErrorMessage error 500))
  let _ ← sql (.setSessionState id .failed)

/-- What both finalising endpoints write once the checkout is paid. -/
def settleSession (id signature reference : String) : Handler Unit := do
  let _ ← sql (.insertPaidAttempt id signature)
  let _ ← sql (.setSessionPaid id signature)
  let _ ← redis (.del (redisKey reference))

def v1SubmitSignature (p : Platform) (r : V1Request) : Handler Answer := do
  if r.method ≠ .post then return httpError "Method not allowed" 405
  let id := sessionID r.path "/submit-signature"
  let some body := r.signature | return httpError "Invalid request body" 400
  let signature := trimSpace body
  if signature = "" then return httpError "signature is required" 400
  match ← sql (.selectSession id) with
  | .ok (some session) =>
      let idemKey := trimSpace r.idempotencyKey
      match ← replayed session.ownerEmail idemKey submitEndpoint with
      | some response => return .responded 200 response
      | none =>
          if session.state ≠ .awaitingPayment ∧ session.state ≠ .verifying then
            return httpError "session cannot accept signature" 409
          let _ ← sql (.setSessionState id .verifying)
          match ← redis (.hGetAll (redisKey session.reference)) with
          | .ok (some invoiceData) =>
              match ← verifyTransactionForMerchant p session.reference signature
                  session.amountAtomic session.merchantWallet with
              | .panicked => return .panicked
              | .rejected text =>
                  failAttempt id signature text
                  emitPaymentWebhook p "payment.failed"
                    [("sessionId", id), ("reference", session.reference), ("reason", text)]
                  return httpError text 400
              | .accepted _ =>
                  match ← finalizePaidCheckout p session.reference signature invoiceData
                      session.amountAtomic with
                  | .error text =>
                      failAttempt id signature text
                      emitPaymentWebhook p "payment.failed" [("sessionId", id),
                        ("reference", session.reference), ("reason", "finalize_failed")]
                      return httpError "failed to finalize payment" 500
                  | .ok _ =>
                      settleSession id signature session.reference
                      let status ← getCheckoutStatusByReference session.reference
                      let content := Content.checkoutStatus (status.getD .zero)
                      remember session.ownerEmail idemKey submitEndpoint content
                      emitPaymentWebhook p "payment.paid" [("sessionId", id),
                        ("reference", session.reference), ("signature", signature)]
                      return .responded 200 content
          | _ => return httpError "session expired" 404
  | _ => return httpError "session not found" 404

def v1CancelPaymentSession (p : Platform) (r : V1Request) : Handler Answer := do
  if r.method ≠ .post then return httpError "Method not allowed" 405
  let id := sessionID r.path "/cancel"
  match ← sql (.selectSession id) with
  | .ok (some session) =>
      let idemKey := trimSpace r.idempotencyKey
      match ← replayed session.ownerEmail idemKey cancelEndpoint with
      | some response => return .responded 200 response
      | none =>
          if session.state = .paid then return httpError "paid session cannot be cancelled" 409
          let _ ← sql (.setSessionState id .cancelled)
          let _ ← sql (.deletePendingCheckout session.reference)
          let _ ← redis (.del (redisKey session.reference))
          remember session.ownerEmail idemKey cancelEndpoint .cancelled
          emitPaymentWebhook p "payment.cancelled"
            [("sessionId", id), ("reference", session.reference)]
          return .responded 200 .cancelled
  | _ => return httpError "session not found" 404

def v1VerifyPaymentSession (r : V1Request) : Handler Answer := do
  if r.method ≠ .post then return httpError "Method not allowed" 405
  match ← sql (.selectSession (sessionID r.path "/verify")) with
  | .ok (some session) =>
      if session.signature.getD "" = "" then
        return httpError "signature is missing; submit-signature first" 400
      match ← getCheckoutStatusByReference session.reference with
      | some status => return .responded 200 (.checkoutStatus status)
      | none => return httpError "status unavailable" 404
  | _ => return httpError "session not found" 404

/-- `url.QueryEscape` and the sorted `url.Values.Encode` of the five parameters. -/
def solanaPayURL (p : Platform) (session : SessionRow) : String :=
  "solana:" ++ session.merchantWallet ++ "?amount=" ++
    p.queryEscape (p.formatAtomicAmount session.amountAtomic) ++
    "&label=Payknot+Event+Deposit&memo=" ++ p.queryEscape session.reference ++
    "&message=Pay+event+deposit&spl-token=" ++ p.queryEscape (usdcMintAddress p)

def v1GetQrSession (p : Platform) (r : V1Request) : Handler Answer := do
  if r.method ≠ .post then return httpError "Method not allowed" 405
  match ← sql (.selectSession (sessionID r.path "/qr")) with
  | .ok (some session) =>
      if session.state ≠ .awaitingPayment then return httpError "session is not payable" 409
      let url := solanaPayURL p session
      return .responded 200 (.qrSession session.reference url
        ("https://api.qrserver.com/v1/create-qr-code/?size=320x320&data=" ++ p.queryEscape url)
        networkFromMint)
  | _ => return httpError "session not found" 404

def v1DetectPayment (p : Platform) (r : V1Request) : Handler Answer := do
  if r.method ≠ .post then return httpError "Method not allowed" 405
  let id := sessionID r.path "/detect"
  match ← sql (.selectSession id) with
  | .ok (some session) =>
      if session.state = .paid then return ← respondCheckoutStatus session.reference
      match ← redis (.hGetAll (redisKey session.reference)) with
      | .ok (some invoiceData) =>
          match ← detectSignatureByReferenceForMerchant p session.reference session.amountAtomic
              session.merchantWallet with
          | .panicked => return .panicked
          | .rejected text =>
              emitPaymentWebhook p "payment.pending"
                [("sessionId", id), ("reference", session.reference), ("reason", text)]
              return .responded 202 (.pending text)
          | .accepted (signature, senderWallet) =>
              match ← finalizePaidCheckout p session.reference signature
                  (fillSender invoiceData senderWallet) session.amountAtomic with
              | .error _ => return httpError "failed to finalize payment" 400
              | .ok _ =>
                  settleSession id signature session.reference
                  let status ← getCheckoutStatusByReference session.reference
                  emitPaymentWebhook p "payment.paid" [("sessionId", id),
                    ("reference", session.reference), ("signature", signature)]
                  return .responded 200 (.checkoutStatus (status.getD .zero))
      | _ => return httpError "session expired" 404
  | _ => return httpError "session not found" 404

end Payknot
