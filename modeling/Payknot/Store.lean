import Payknot.Interleaving
import Payknot.Transaction

/-! PostgreSQL, Redis and the chain as the handlers see them. Every constructor of
`Sql`, `Redis` and `Rpc` is one statement, command or call of the source; a failed
one leaves the world unchanged. UUIDs drawn by `uuid.NewString` are fresh, which
`minted` keeps track of. -/
namespace Payknot
open GoText Interleaving

inductive InvoiceStatus where
  | pending | paid | expired | failed | error
  deriving DecidableEq

inductive CheckoutStatus where
  | pendingPayment | paid | approved | failed | rejected
  deriving DecidableEq

def CheckoutStatus.text : CheckoutStatus → String
  | .pendingPayment => "pending_payment"
  | .paid => "paid"
  | .approved => "approved"
  | .failed => "failed"
  | .rejected => "rejected"

/-- The values the source writes into `payment_sessions.state`. -/
inductive SessionState where
  | awaitingPayment | verifying | paid | failed | cancelled
  deriving DecidableEq

def SessionState.text : SessionState → String
  | .awaitingPayment => "awaiting_payment"
  | .verifying => "verifying"
  | .paid => "paid"
  | .failed => "failed"
  | .cancelled => "cancelled"

/-- The columns of `events` that the events API writes. -/
structure EventColumns where
  title : String
  description : String
  eventImageURL : String
  eventDate : Option Time
  location : String
  organizerName : String
  merchantWallet : String
  amountUSDC : Int64
  eventSource : String
  sourceURL : String
  participantFormSchema : Json
  paymentMethods : Json
  checkoutExpiresAt : Time

structure EventRow where
  id : Int64
  slug : String
  ownerEmail : String
  status : String
  columns : EventColumns
  createdAt : Time

structure InvoiceRow where
  walletAddress : String
  reference : String
  amount : Int64
  signature : Option String
  status : InvoiceStatus
  errReason : Option String

structure CheckoutRow where
  id : Nat
  eventId : Int64
  walletAddress : String
  reference : String
  signature : Option String
  amount : Int64
  status : CheckoutStatus
  createdAt : Time
  paidAt : Option Time
  participantData : Json
  paymentMethod : String

structure SessionRow where
  id : String
  eventId : Int64
  ownerEmail : String
  participantData : Json
  walletAddress : String
  paymentMethod : String
  state : SessionState
  reference : String
  amountAtomic : Int64
  mint : String
  merchantWallet : String
  idempotencyKey : String
  signature : Option String
  expiresAt : Time

structure AttemptRow where
  sessionId : String
  signature : String
  status : String
  errorReason : Option String

structure CheckoutStatusResponse where
  reference : String
  status : String
  signature : String
  network : String
  solscanURL : String
  paymentMethod : String
  participantData : Option Object

structure V1PaymentSessionResponse where
  sessionID : String
  reference : String
  state : String
  paymentMethod : String
  amountAtomic : Int64
  mint : String
  expiresAt : Time

structure ParticipantField where
  fieldName : String
  required : Bool

structure PaymentMethods where
  wallet : Bool
  qr : Bool

structure CreateEventResponse where
  eventID : Int64
  slug : String
  checkoutURL : String
  eventImageURL : String
  checkoutExpiresAt : String
  amountUSDC : String
  merchantWallet : String
  eventSource : String
  sourceURL : String
  participantFormSchema : List ParticipantField
  paymentMethods : PaymentMethods

inductive Content where
  | empty
  | message (text : String)
  | checkoutStatus (response : CheckoutStatusResponse)
  | invoice (reference : String) (amountRaw : Int64) (network : String)
  | session (response : V1PaymentSessionResponse)
  | walletInstructions (reference merchantWallet : String) (amountAtomic : Int64)
      (mint network : String)
  | qrSession (reference solanaPayURL qrImageURL network : String)
  | cancelled
  | pending (message : String)
  | event (response : CreateEventResponse)

structure IdempotencyRow where
  ownerEmail : String
  idemKey : String
  endpoint : String
  response : Content

/-- The hash under `invoice:<reference>`; Go reads a missing field as "". -/
structure InvoiceHash where
  walletAddress : String
  amount : String
  eventId : String
  merchantWallet : String
  paymentMethod : String
  participantData : String

structure CachedInvoice where
  key : String
  hash : InvoiceHash
  deadline : Option Time

structure SignatureInfo where
  signature : Signature
  memo : Option String

structure Landed where
  signature : Signature
  result : TransactionResult
  addresses : List PublicKey
  memo : Option String

structure World where
  events : List EventRow
  nextEventId : Nat
  invoices : List InvoiceRow
  checkouts : List CheckoutRow
  nextCheckoutId : Nat
  sessions : List SessionRow
  attempts : List AttemptRow
  records : List IdempotencyRow
  cache : List CachedInvoice
  /-- Landed transactions, newest first. -/
  chain : List Landed
  now : Time
  minted : List String

/-- Why an operation failed; the text is what `err.Error()` shows. -/
structure Fault where
  text : String

def storable (text : String) : Bool := text.toList.all fun c => c.toNat ≠ 0

def invalidByteSequence : Fault :=
  ⟨"ERROR: invalid byte sequence for encoding \"UTF8\" (SQLSTATE 22021)"⟩

/-- A text parameter that may be cut inside a character; `none` is not valid UTF-8
and makes PostgreSQL refuse the statement. -/
abbrev TextParam := Option String

/-- The values of the INSERTs into `event_checkouts`; participant data is still text. -/
structure PaidCheckout where
  eventId : Int64
  walletAddress : String
  reference : String
  signature : String
  amount : Int64
  participantData : String
  paymentMethod : String

/-- A row of the reconciler's query, joined with the event's merchant wallet. -/
structure CheckoutRecoveryRow where
  id : Nat
  reference : String
  signature : String
  amount : Int64
  createdAt : Time
  merchantWallet : String

/-- The values of the INSERT into `payment_sessions`. -/
structure NewSession where
  id : String
  eventId : Int64
  ownerEmail : String
  participantData : String
  walletAddress : String
  paymentMethod : String
  reference : String
  amountAtomic : Int64
  mint : String
  merchantWallet : String
  idempotencyKey : String
  expiresAt : Time

inductive Sql where
  | selectActiveEventBySlug (slug : String)
  | selectActiveEventById (id : Int64)
  | eventSlugExists (slug : String)
  | insertEvent (slug ownerEmail : String) (columns : EventColumns)
  | hasPaidDeposits (eventId : Int64)
  | updateEvent (id : Int64) (ownerEmail : String) (columns : EventColumns)
  | deleteEvent (id : Int64) (ownerEmail : String)
  | paidEmailExists (eventId : Int64) (otherThan : Option String) (email : String)
  | upsertPaidInvoice (walletAddress reference signature : String) (amount : Int64)
  | upsertErrorInvoice (walletAddress reference signature : String) (amount : Int64)
      (errReason : TextParam)
  | insertPaidInvoice (walletAddress reference signature : String) (amount : Int64)
  | deletePendingInvoice (reference : String)
  | selectCheckout (reference : String)
  | upsertPaidCheckout (checkout : PaidCheckout)
  | insertPaidCheckout (checkout : PaidCheckout)
  | deletePendingCheckout (reference : String)
  | selectRecoverable
  | markCheckoutPaid (id : Nat) (signature senderWallet : String)
  | markCheckoutFailed (id : Nat)
  | insertSession (session : NewSession)
  | selectSession (id : String)
  | setSessionState (id : String) (state : SessionState)
  | setSessionPaid (id signature : String)
  | insertFailedAttempt (sessionId signature : String) (errorReason : TextParam)
  | insertPaidAttempt (sessionId signature : String)
  | loadIdempotent (ownerEmail idemKey endpoint : String)
  | saveIdempotent (record : IdempotencyRow)

abbrev Sql.Result : Sql → Type
  | .selectActiveEventBySlug _ | .selectActiveEventById _ => Option EventRow
  | .eventSlugExists _ | .hasPaidDeposits _ | .paidEmailExists _ _ _ => Bool
  | .insertEvent _ _ _ => Int64
  | .updateEvent _ _ _ | .deleteEvent _ _ => Nat
  | .selectCheckout _ => Option CheckoutRow
  | .selectRecoverable => List CheckoutRecoveryRow
  | .selectSession _ => Option SessionRow
  | .loadIdempotent _ _ _ => Option Content
  | _ => Unit

inductive Redis where
  | hSet (key : String) (hash : InvoiceHash)
  | expire (key : String) (ttl : Time)
  | hGetAll (key : String)
  | del (key : String)

/-- `HGetAll` of an absent key is an empty map. -/
abbrev Redis.Result : Redis → Type
  | .hGetAll _ => Option InvoiceHash
  | _ => Unit

inductive RpcClient where
  | primary | backup

inductive Rpc where
  | getHealth
  | getTransaction (client : RpcClient) (signature : Signature)
  | getSignaturesForAddress (client : RpcClient) (address : PublicKey) (limit : Nat)

abbrev Rpc.Result : Rpc → Type
  | .getHealth => Unit
  | .getTransaction _ _ => TransactionResult
  | .getSignaturesForAddress _ _ _ => List SignatureInfo

inductive Op where
  | sql (statement : Sql)
  | redis (command : Redis)
  | rpc (call : Rpc)
  | newUUID
  | now
  | postWebhook (event : String) (occurredAt : Time) (payload : List (String × String))

abbrev Reply : Op → Type
  | .sql statement => Except Fault statement.Result
  | .redis command => Except Fault command.Result
  | .rpc call => Except Fault call.Result
  | .newUUID => String
  | .now => Time
  | .postWebhook _ _ _ => Unit

end Payknot
