import Payknot.Watcher
import Payknot.ParticipantFields

/-! `checkout.go`: the legacy checkout endpoints and the two helpers every
finalising endpoint shares. A request body is `none` when it does not decode. -/
namespace Payknot
open GoText Interleaving

inductive Method where
  | get | post | other
  deriving DecidableEq

structure HttpRequest (Body : Type) where
  method : Method
  body : Option Body

structure CreateCheckoutInvoiceRequest where
  slug : String
  walletAddress : String
  participantData : Option Object
  paymentMethod : String

structure SignatureRequest where
  reference : String
  signature : String

structure ReferenceRequest where
  reference : String

structure ManualVerifyRequest where
  slug : String
  walletAddress : String
  signature : String
  participant : Option Object

def redisKey (reference : String) : String := "invoice:" ++ reference

def truncateErrorMessage (msg : String) (max : Nat) : TextParam :=
  if msg.utf8ByteSize ≤ max then some msg else (cutRunes msg.toList max).map String.ofList

/-- `resp` as declared, before anything is scanned into it. -/
def CheckoutStatusResponse.zero : CheckoutStatusResponse := ⟨"", "", "", "", "", "", none⟩

def CheckoutRow.response (row : CheckoutRow) : CheckoutStatusResponse :=
  let signature := row.signature.getD ""
  { reference := row.reference, status := row.status.text, signature := signature
    network := networkFromMint
    solscanURL := if signature ≠ "" then solscanURLForNetwork signature else ""
    paymentMethod := row.paymentMethod
    participantData := match row.participantData with
      | .obj members => some members
      | _ => none }

/-- `none` is an error; a caller that drops it goes on with the zero value. -/
def getCheckoutStatusByReference (reference : String) : Handler (Option CheckoutStatusResponse) := do
  match ← sql (.selectCheckout reference) with
  | .ok (some row) => return some row.response
  | _ => return none

def respondCheckoutStatus (reference : String) : Handler Answer := do
  let status ← getCheckoutStatusByReference reference
  return .responded 200 (.checkoutStatus (status.getD .zero))

def normalizeEmail (p : Platform) (data : Option Object) : String :=
  toLower p.lowerRune (trimSpace (sprint p.sprintFloat (lookupMap data "email")))

def emailTaken : String := "this email already completed a transaction for this event"

/-- The bound rule: 1 email = 1 paid transaction per event. The finaliser skips
its own reference, session creation skips none. -/
def checkEmail (p : Platform) (eventID : Int64) (otherThan : Option String) (data : Option Object) :
    Handler (Except String Unit) := do
  let email := normalizeEmail p data
  if email = "" ∨ email = "<nil>" then return .ok ()
  match ← sql (.paidEmailExists eventID otherThan email) with
  | .error fault => return .error fault.text
  | .ok true => return .error emailTaken
  | .ok false => return .ok ()

def ensureParticipantEmailAvailable (p : Platform) (eventID : Int64) (data : Option Object) :
    Handler (Except String Unit) :=
  checkEmail p eventID none data

def orDefault (value fallback : String) : String :=
  if trimSpace value = "" then fallback else trimSpace value

def finalizePaidCheckout (p : Platform) (reference signature : String) (invoiceData : InvoiceHash)
    (amount : Int64) : Handler (Except String Unit) := do
  let walletAddress := orDefault invoiceData.walletAddress "unknown_wallet"
  match parseInt invoiceData.eventId with
  | .error text => return .error text
  | .ok eventID =>
      let participantData := orDefault invoiceData.participantData "\x7b\x7d"
      let paymentMethod := orDefault invoiceData.paymentMethod "wallet"
      match ← checkEmail p eventID (some reference) (p.unmarshalMap participantData) with
      | .error text => return .error text
      | .ok _ =>
          match ← sql (.upsertPaidInvoice walletAddress reference signature amount) with
          | .error fault => return .error fault.text
          | .ok _ =>
              match ← sql (.upsertPaidCheckout ⟨eventID, walletAddress, reference, signature, amount,
                  participantData, paymentMethod⟩) with
              | .error fault => return .error fault.text
              | .ok _ => return .ok ()

def invoiceHash (p : Platform) (event : EventRow) (walletAddress paymentMethod : String)
    (participantData : Option Object) : InvoiceHash :=
  { walletAddress := walletAddress, amount := formatInt event.columns.amountUSDC
    eventId := formatInt event.id, merchantWallet := event.columns.merchantWallet
    paymentMethod := paymentMethod, participantData := p.marshalMap participantData }

def createCheckoutInvoice (p : Platform) (r : HttpRequest CreateCheckoutInvoiceRequest) :
    Handler Answer := do
  if r.method ≠ .post then return httpError "Only POST method is allowed" 405
  let some req := r.body | return httpError "Invalid request body" 400
  let slug := trimSpace req.slug
  let paymentMethod := trimSpace req.paymentMethod
  let walletAddress := trimSpace req.walletAddress
  if slug = "" then return httpError "slug is required" 400
  match ← sql (.selectActiveEventBySlug slug) with
  | .ok (some event) =>
      let now ← timeNow
      if event.columns.checkoutExpiresAt < now then return httpError "Checkout has expired" 410
      match validateParticipantData p (decodeParticipantFields p event.columns.participantFormSchema)
          req.participantData with
      | .error text => return httpError text 400
      | .ok _ =>
          match ← ensureParticipantEmailAvailable p event.id req.participantData with
          | .error text => return httpError text 409
          | .ok _ =>
              let methods := decodePaymentMethods event.columns.paymentMethods
              if paymentMethod = "wallet" then
                if !methods.wallet then return httpError "wallet method disabled" 400
                if !isValidWalletAddress p walletAddress then
                  return httpError "walletAddress is required for wallet method" 400
                invoice event walletAddress paymentMethod req.participantData
              else if paymentMethod = "qr" then
                if !methods.qr then return httpError "qr method disabled" 400
                invoice event walletAddress paymentMethod req.participantData
              else return httpError "invalid payment method" 400
  | _ => return httpError "Event not found" 404
where
  /-- From `uuid.NewString` on. -/
  invoice (event : EventRow) (walletAddress paymentMethod : String)
      (participantData : Option Object) : Handler Answer := do
    let reference ← newUUID
    match ← redis (.hSet (redisKey reference)
        (invoiceHash p event walletAddress paymentMethod participantData)) with
    | .error _ => return httpError "Failed to create invoice" 500
    | .ok _ =>
        match ← redis (.expire (redisKey reference) (20 * minute)) with
        | .error _ => return httpError "Failed to set invoice expiration" 500
        | .ok _ =>
            return .responded 200 (.invoice reference event.columns.amountUSDC networkFromMint)

def cancelCheckoutInvoice (p : Platform) (r : HttpRequest ReferenceRequest) : Handler Answer := do
  if r.method ≠ .post then return httpError "Only POST method is allowed" 405
  let some req := r.body | return httpError "Invalid request body" 400
  -- The check is on the trimmed text, everything after it on the raw one.
  if !isValidReference p (trimSpace req.reference) then return httpError "invalid reference" 400
  let _ ← sql (.deletePendingCheckout req.reference)
  let _ ← sql (.deletePendingInvoice req.reference)
  let _ ← redis (.del (redisKey req.reference))
  return .responded 200 .empty

def confirmCheckoutPayment (p : Platform) (r : HttpRequest SignatureRequest) : Handler Answer := do
  if r.method ≠ .post then return httpError "Only POST method is allowed" 405
  let some req := r.body | return httpError "Invalid request body" 400
  if !isValidReference p req.reference ∨ trimSpace req.signature = "" then
    return httpError "reference and signature are required" 400
  match ← redis (.hGetAll (redisKey req.reference)) with
  | .ok (some invoiceData) =>
      match parseInt invoiceData.amount with
      | .error _ => return httpError "Invalid invoice amount" 500
      | .ok amount =>
          let merchantWallet := trimSpace invoiceData.merchantWallet
          if merchantWallet = "" then return httpError "merchant wallet not found" 500
          match ← verifyTransactionForMerchant p req.reference req.signature amount merchantWallet with
          | .panicked => return .panicked
          | .rejected text =>
              let _ ← sql (.upsertErrorInvoice (trimSpace invoiceData.walletAddress) req.reference
                req.signature amount (truncateErrorMessage text 500))
              return httpError text 400
          | .accepted _ =>
              match ← finalizePaidCheckout p req.reference req.signature invoiceData amount with
              | .error _ => return httpError "Failed to update checkout" 500
              | .ok _ =>
                  let _ ← redis (.del (redisKey req.reference))
                  respondCheckoutStatus req.reference
  | _ => return httpError "Invoice not found or expired" 404

def sessionExpired : String := "Checkout session expired. Please start a new payment session."

def recheckCheckoutPayment (p : Platform) (r : HttpRequest SignatureRequest) : Handler Answer := do
  if r.method ≠ .post then return httpError "Only POST method is allowed" 405
  let some req := r.body | return httpError "Invalid request body" 400
  if !isValidReference p (trimSpace req.reference) then return httpError "invalid reference" 400
  match ← sql (.selectCheckout req.reference) with
  | .ok (some row) =>
      if row.isPaid then respondCheckoutStatus req.reference
      else unpaid req.reference (trimSpace req.signature)
  | _ => unpaid req.reference (trimSpace req.signature)
where
  /-- From the cached invoice on. -/
  unpaid (reference signature : String) : Handler Answer := do
    match ← redis (.hGetAll (redisKey reference)) with
    | .ok (some invoiceData) =>
        match parseInt invoiceData.amount with
        | .error _ => return httpError "Invalid session amount" 400
        | .ok amount =>
            let merchantWallet := trimSpace invoiceData.merchantWallet
            if merchantWallet = "" then return httpError "merchant wallet not found" 400
            if signature = "" then
              return httpError "Missing signature. Submit payment signature to recheck." 400
            match ← verifyTransactionForMerchant p reference signature amount merchantWallet with
            | .panicked => return .panicked
            | .rejected text => return httpError text 400
            | .accepted _ =>
                match ← finalizePaidCheckout p reference signature invoiceData amount with
                | .error _ => return httpError "Failed to finalize checkout" 500
                | .ok _ =>
                    let _ ← redis (.del (redisKey reference))
                    respondCheckoutStatus reference
    | _ => return httpError sessionExpired 404

def manualVerifyCheckoutPayment (p : Platform) (r : HttpRequest ManualVerifyRequest) :
    Handler Answer := do
  if r.method ≠ .post then return httpError "Only POST method is allowed" 405
  let some req := r.body | return httpError "Invalid request body" 400
  let slug := trimSpace req.slug
  let walletAddress := trimSpace req.walletAddress
  let signature := trimSpace req.signature
  if slug = "" ∨ signature = "" ∨ !isValidWalletAddress p walletAddress then
    return httpError "slug, walletAddress and signature are required" 400
  match ← sql (.selectActiveEventBySlug slug) with
  | .ok (some event) =>
      let amount := event.columns.amountUSDC
      match ← verifyDirectTransferForMerchant p signature amount event.columns.merchantWallet
          walletAddress with
      | .panicked => return .panicked
      | .rejected text => return httpError text 400
      | .accepted _ =>
          let reference ← newUUID
          let _ ← sql (.insertPaidInvoice walletAddress reference signature amount)
          -- The column default of payment_method is 'wallet'.
          let _ ← sql (.insertPaidCheckout ⟨event.id, walletAddress, reference, signature, amount,
            p.marshalMap req.participant, "wallet"⟩)
          return .responded 200 (.checkoutStatus
            { reference := reference, status := "paid", signature := signature
              network := networkFromMint, solscanURL := solscanURLForNetwork signature
              paymentMethod := "", participantData := req.participant })
  | _ => return httpError "Event not found" 404

/-- An empty wallet is filled in with the sender the verifier found. -/
def fillSender (invoiceData : InvoiceHash) (senderWallet : String) : InvoiceHash :=
  if trimSpace invoiceData.walletAddress = "" ∧ senderWallet ≠ "" then
    { invoiceData with walletAddress := senderWallet }
  else invoiceData

def detectCheckoutPayment (p : Platform) (r : HttpRequest ReferenceRequest) : Handler Answer := do
  if r.method ≠ .post then return httpError "Only POST method is allowed" 405
  let some req := r.body | return httpError "Invalid request body" 400
  let reference := trimSpace req.reference
  if !isValidReference p reference then return httpError "invalid reference" 400
  match ← getCheckoutStatusByReference reference with
  | some existing =>
      if existing.status = "paid" then return .responded 200 (.checkoutStatus existing)
      else unpaid reference
  | none => unpaid reference
where
  /-- From the cached invoice on. -/
  unpaid (reference : String) : Handler Answer := do
    match ← redis (.hGetAll (redisKey reference)) with
    | .ok (some invoiceData) =>
        match parseInt invoiceData.amount with
        | .error _ => return httpError "Invalid session amount" 400
        | .ok amount =>
            let merchantWallet := trimSpace invoiceData.merchantWallet
            if merchantWallet = "" then return httpError "merchant wallet not found" 400
            match ← detectSignatureByReferenceForMerchant p reference amount merchantWallet with
            | .panicked => return .panicked
            | .rejected text => return .responded 202 (.pending text)
            | .accepted (signature, senderWallet) =>
                match ← finalizePaidCheckout p reference signature
                    (fillSender invoiceData senderWallet) amount with
                | .error text => return httpError text 400
                | .ok _ =>
                    let _ ← redis (.del (redisKey reference))
                    respondCheckoutStatus reference
    | _ => return httpError sessionExpired 404

end Payknot
