import Payknot.GoText
import Payknot.Interleaving

/-! The checkout page: `page.tsx`. Its effects and event handlers are programs; an
operation is what the page does in one go, or what it waits for, and the outside (server,
wallet, chain, participant) chooses the answers. State hooks are kept three times: as set,
as last rendered, which is what a click handler sees, and as of the last effect, which is
what the window's listeners see. The markup is left out, and with it every hook that no
call depends on: any handler may run at any time. -/
namespace Payknot.CheckoutPage
open GoText Interleaving

inductive PaymentMethod where
  | wallet | qr
  deriving DecidableEq

def PaymentMethod.text : PaymentMethod → String
  | .wallet => "wallet"
  | .qr => "qr"

/-- A session as `createInvoice` returns it; a legacy one has no id. -/
structure Created where
  sessionId : String
  reference : String
  deriving DecidableEq

structure CheckoutStatus where
  reference : String
  status : String

structure Order where
  slug : String
  walletAddress : String
  participantData : List (String × String)
  paymentMethod : PaymentMethod

structure Hooks where
  activeSessionId : String
  reference : String
  statusData : Option CheckoutStatus

/-- What `localStorage` holds under the page's key. Nothing reads the signature. -/
structure PendingSession where
  sessionId : String
  reference : String
  expiresAt : Nat
  signature : String

inductive Call where
  | createSession (idempotencyKey : String) (order : Order)
  | createInvoice (order : Order)
  | cancelSession (sessionId : String)
  | cancel (reference : String)
  | submitSignature (sessionId signature : String)
  | confirm (reference signature : String)
  | status (reference : String)
  | participantStatus (email : String)

/-- `res.ok` with the body read, a refusal with its text, or a rejected promise. -/
inductive Fetched (Body : Type) where
  | ok (body : Body)
  | refused (text : String)
  | thrown (text : String)

abbrev Call.Body : Call → Type
  | .createSession _ _ => Created
  | .createInvoice _ => String
  | .cancelSession _ => Unit
  | .cancel _ => Unit
  | .submitSignature _ _ => CheckoutStatus
  | .confirm _ _ => CheckoutStatus
  | .status _ => CheckoutStatus
  | .participantStatus _ => Option CheckoutStatus

inductive Op where
  /-- The hooks of the render a click handler belongs to. -/
  | closure
  /-- `window.confirm`. -/
  | confirmDialog
  /-- `Date.now`. -/
  | dateNow
  | fetch (call : Call)
  /-- The setters after `createInvoice`. -/
  | showSession (created : Created)
  /-- The setters of a stored session. -/
  | resumeSession (created : Created)
  | persistPending (created : Created) (signature : String)
  | readPending
  | removePending
  | clearPending
  /-- `setStatusData(null)`. -/
  | clearStatus
  | hydrateStatus (data : CheckoutStatus)
  /-- The transfer made out for this session, and its signature once the wallet has sent it. -/
  | createUsdcTransfer (created : Created)
  | sendTransaction (created : Created)
  /-- Whether `confirmed.value.err` is empty. -/
  | confirmTransaction (signature : String)

abbrev Reply : Op → Type
  | .closure => Hooks
  | .confirmDialog => Bool
  | .dateNow => Nat
  | .fetch call => Fetched call.Body
  | .showSession _ => Unit
  | .resumeSession _ => Unit
  | .persistPending _ _ => Unit
  | .readPending => Option PendingSession
  | .removePending => Unit
  | .clearPending => Unit
  | .clearStatus => Unit
  | .hydrateStatus _ => Unit
  | .createUsdcTransfer _ => Except String Unit
  | .sendTransaction _ => Except String String
  | .confirmTransaction _ => Except String Bool

abbrev Handler := Program Reply

def perform (op : Op) : Handler (Reply op) := Program.perform op

def fetch (call : Call) : Handler (Fetched call.Body) := Program.perform (Op.fetch call)

def finalStatuses : List String := ["paid", "failed", "cancelled", "rejected", "approved"]

/-- `(status || "pending_payment").toLowerCase()`. -/
def isFinal (status : String) : Bool :=
  toLower Char.toLower (if status = "" then "pending_payment" else status) ∈ finalStatuses

def hasActiveSession (hooks : Hooks) : Bool :=
  if hooks.reference = "" then false
  else !isFinal ((hooks.statusData.map CheckoutStatus.status).getD "")

def createInvoice (slug walletAddress : String) (participantData : List (String × String))
    (method : PaymentMethod) : Handler (Except String Created) := do
  let order : Order := ⟨slug, walletAddress, participantData, method⟩
  let now ← perform .dateNow
  match ← fetch (.createSession (slug ++ "-" ++ method.text ++ "-" ++ toString now) order) with
  | .ok created => return .ok created
  | .thrown text => return .error text
  | .refused _ =>
      match ← fetch (.createInvoice order) with
      | .ok reference => return .ok ⟨"", reference⟩
      | .refused text => return .error text
      | .thrown text => return .error text

def refreshStatus (reference : String) : Handler Unit := do
  if reference = "" then return ()
  match ← fetch (.status reference) with
  | .ok data => perform (.hydrateStatus data)
  | _ => return ()

section Wallet

/-- The local variables of `startWalletPayment` at the end of its `try` block. -/
structure Attempt where
  created : Created
  sentSignature : String
  thrown : Bool

def submit (created : Created) (signature : String) : Handler (Option CheckoutStatus) := do
  if created.sessionId ≠ "" then
    match ← fetch (.submitSignature created.sessionId signature) with
    | .ok paid => return some paid
    | _ => return none
  else
    match ← fetch (.confirm created.reference signature) with
    | .ok paid => return some paid
    | _ => return none

/-- The `try` block. -/
def payFromWallet (slug publicKey : String) (participantData : List (String × String)) :
    Handler Attempt := do
  match ← createInvoice slug publicKey participantData .wallet with
  | .error _ => return ⟨⟨"", ""⟩, "", true⟩
  | .ok created =>
      perform (.showSession created)
      perform (.persistPending created "")
      match ← perform (.createUsdcTransfer created) with
      | .error _ => return ⟨created, "", true⟩
      | .ok _ =>
          match ← perform (.sendTransaction created) with
          | .error _ => return ⟨created, "", true⟩
          | .ok signature =>
              perform (.persistPending created signature)
              match ← perform (.confirmTransaction signature) with
              | .ok true =>
                  match ← submit created signature with
                  | some paid =>
                      perform (.hydrateStatus paid)
                      return ⟨created, signature, false⟩
                  | none => return ⟨created, signature, true⟩
              | _ => return ⟨created, signature, true⟩

def cancelCreated (created : Created) : Handler (Fetched Unit) :=
  if created.sessionId ≠ "" then fetch (.cancelSession created.sessionId)
  else fetch (.cancel created.reference)

def startWalletPayment (slug : String) (publicKey : Option String)
    (participantData : List (String × String)) : Handler Unit := do
  let some key := publicKey | return ()
  let attempt ← payFromWallet slug key participantData
  if attempt.thrown = true ∧ attempt.created.reference ≠ "" ∧ attempt.sentSignature = "" then
    match ← cancelCreated attempt.created with
    | .thrown _ => return ()
    | _ =>
        perform .clearPending
        perform .clearStatus

end Wallet

def startQrSession (slug : String) (participantData : List (String × String)) : Handler Unit := do
  match ← createInvoice slug "" participantData .qr with
  | .error _ => return ()
  | .ok created =>
      perform (.showSession created)
      perform (.persistPending created "")

/-- The first call of `cancelCurrentSession`, if it is made. -/
def cancelActive (hooks : Hooks) : Handler (Fetched Unit) :=
  if hooks.activeSessionId ≠ "" then fetch (.cancelSession hooks.activeSessionId) else pure (.ok ())

/-- The `try` block: a rejected first call ends it. -/
def cancelShown (hooks : Hooks) : Handler Unit := do
  match ← cancelActive hooks with
  | .thrown _ => return ()
  | _ =>
      let _ ← fetch (.cancel hooks.reference)
      return ()

def cancelCurrentSession (hooks : Hooks) : Handler Unit := do
  if hooks.reference = "" then return ()
  cancelShown hooks
  perform .clearPending
  perform .clearStatus

def back : Handler Unit := do
  let hooks ← perform .closure
  if hasActiveSession hooks then
    if ← perform .confirmDialog then cancelCurrentSession hooks
  else
    perform .clearPending
    perform .clearStatus

def continueToPayment : Handler Unit := do
  perform .clearPending
  perform .clearStatus

def mount : Handler Unit := do
  match ← perform .readPending with
  | none => return ()
  | some data =>
      let now ← perform .dateNow
      if data.reference = "" ∨ data.expiresAt ≤ now then perform .removePending
      else
        perform (.resumeSession ⟨data.sessionId, data.reference⟩)
        refreshStatus data.reference

def qrPaid (payload : CheckoutStatus) : Handler Unit := do
  if payload.status ≠ "paid" then return ()
  perform (.hydrateStatus payload)

def checkLookup (email : String) : Handler Unit := do
  if email = "" then return ()
  match ← fetch (.participantStatus email) with
  | .ok (some receipt) =>
      if receipt.status ≠ "paid" then return ()
      perform (.hydrateStatus receipt)
  | _ => return ()

inductive Request where
  | mount
  | qrPaid (payload : CheckoutStatus)
  | checkLookup (email : String)
  | continueToPayment
  | startWalletPayment (publicKey : Option String) (participantData : List (String × String))
  | startQrSession (participantData : List (String × String))
  | back

def handler (slug : String) : Request → Handler Unit
  | .mount => mount
  | .qrPaid payload => qrPaid payload
  | .checkLookup email => checkLookup email
  | .continueToPayment => continueToPayment
  | .startWalletPayment publicKey participantData => startWalletPayment slug publicKey participantData
  | .startQrSession participantData => startQrSession slug participantData
  | .back => back

section Execution

structure World where
  hooks : Hooks
  rendered : Hooks
  listening : Hooks
  storage : Option PendingSession
  outbox : List Call
  now : Nat

abbrev Choice := (op : Op) → Reply op

def World.showSession (w : World) (created : Created) : World :=
  let statusData : CheckoutStatus := ⟨created.reference, "pending_payment"⟩
  { w with hooks := ⟨created.sessionId, created.reference, some statusData⟩ }

def World.resumeSession (w : World) (created : Created) : World :=
  let hooks := { w.hooks with activeSessionId := created.sessionId, reference := created.reference }
  { w with hooks := hooks }

def World.persistPending (w : World) (created : Created) (signature : String) : World :=
  let expiresAt := w.now + 10 * 60 * 1000
  { w with storage := some ⟨created.sessionId, created.reference, expiresAt, signature⟩ }

def World.clearPending (w : World) : World :=
  { w with storage := none, hooks := { w.hooks with activeSessionId := "", reference := "" } }

def World.hydrateStatus (w : World) (data : CheckoutStatus) : World :=
  let shown := { w with hooks := { w.hooks with statusData := some data, reference := data.reference } }
  if data.status = "paid" then shown.clearPending else shown

def exec (outside : Choice) : (op : Op) → World → Option (Reply op × World)
  | .closure, w => some (w.rendered, w)
  | .confirmDialog, w => some (outside .confirmDialog, w)
  | .dateNow, w => some (w.now, w)
  | .fetch call, w => some (outside (.fetch call), { w with outbox := w.outbox ++ [call] })
  | .showSession created, w => some ((), w.showSession created)
  | .resumeSession created, w => some ((), w.resumeSession created)
  | .persistPending created signature, w => some ((), w.persistPending created signature)
  | .readPending, w => some (w.storage, w)
  | .removePending, w => some ((), { w with storage := none })
  | .clearPending, w => some ((), w.clearPending)
  | .clearStatus, w => some ((), { w with hooks := { w.hooks with statusData := none } })
  | .hydrateStatus data, w => some ((), w.hydrateStatus data)
  | .createUsdcTransfer created, w => some (outside (.createUsdcTransfer created), w)
  | .sendTransaction created, w => some (outside (.sendTransaction created), w)
  | .confirmTransaction signature, w => some (outside (.confirmTransaction signature), w)

inductive Event where
  | elapse (milliseconds : Nat)
  | render
  | effects
  | beforeUnload
  | pageHide

/-- `onBeforeUnload` and `onPageHide` send the same beacon; the first also asks the
participant to stay. -/
def World.leave (w : World) : World :=
  if !hasActiveSession w.listening ∨ w.listening.reference = "" then w
  else { w with outbox := w.outbox ++ [.cancel w.listening.reference], storage := none }

def occur : Event → World → Option World
  | .elapse milliseconds, w => some { w with now := w.now + milliseconds }
  | .render, w => some { w with rendered := w.hooks }
  | .effects, w => some { w with listening := w.rendered }
  | .beforeUnload, w => some w.leave
  | .pageHide, w => some w.leave

def machine (slug : String) : Machine Reply World Choice Event Request Unit where
  exec := exec
  occur := occur
  handler := handler slug

end Execution

abbrev Page := Config Reply World Request Unit
abbrev PageLabel := Label Choice Event Request
abbrev PageThread := Thread Reply Request Unit

end Payknot.CheckoutPage
