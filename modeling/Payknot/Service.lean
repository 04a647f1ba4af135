import Payknot.Events

/-! The service as one machine: every request of the checkout and event endpoints,
and the recovery pass, is a program; the world is the database, the cache, the
chain and the clock. -/
namespace Payknot
open GoText Interleaving

inductive Request where
  | createInvoice (r : HttpRequest CreateCheckoutInvoiceRequest)
  | cancelInvoice (r : HttpRequest ReferenceRequest)
  | confirm (r : HttpRequest SignatureRequest)
  | recheck (r : HttpRequest SignatureRequest)
  | manualVerify (r : HttpRequest ManualVerifyRequest)
  | detect (r : HttpRequest ReferenceRequest)
  | v1Create (r : V1CreateRequest)
  | v1Status (r : V1Request)
  | v1WalletInstructions (r : V1Request)
  | v1SubmitSignature (r : V1Request)
  | v1Cancel (r : V1Request)
  | v1Verify (r : V1Request)
  | v1Qr (r : V1Request)
  | v1Detect (r : V1Request)
  | createEvent (claims : Option AuthClaims) (r : HttpRequest CreateEventRequest)
  | updateEvent (body : Option CreateEventRequest) (eventID : Int64) (ownerEmail : String)
  | deleteEvent (eventID : Int64) (ownerEmail : String)
  | recoverErrorInvoices

def handler (p : Platform) : Request → Handler Answer
  | .createInvoice r => createCheckoutInvoice p r
  | .cancelInvoice r => cancelCheckoutInvoice p r
  | .confirm r => confirmCheckoutPayment p r
  | .recheck r => recheckCheckoutPayment p r
  | .manualVerify r => manualVerifyCheckoutPayment p r
  | .detect r => detectCheckoutPayment p r
  | .v1Create r => v1CreatePaymentSession p r
  | .v1Status r => v1GetPaymentSessionStatus p r
  | .v1WalletInstructions r => v1GetWalletInstructions p r
  | .v1SubmitSignature r => v1SubmitSignature p r
  | .v1Cancel r => v1CancelPaymentSession p r
  | .v1Verify r => v1VerifyPaymentSession r
  | .v1Qr r => v1GetQrSession p r
  | .v1Detect r => v1DetectPayment p r
  | .createEvent claims r => createEvent p claims r
  | .updateEvent body eventID ownerEmail => updateEvent p body eventID ownerEmail
  | .deleteEvent eventID ownerEmail => deleteEvent eventID ownerEmail
  | .recoverErrorInvoices => recoverErrorInvoices p

def machine (p : Platform) : Machine Reply World Choice WorldEvent Request Answer where
  exec := exec p
  occur := occur
  handler := handler p

abbrev Service := Config Reply World Request Answer
abbrev ServiceLabel := Label Choice WorldEvent Request
abbrev ServiceThread := Thread Reply Request Answer

def Request.opensSession : Request → Bool
  | .createInvoice _ | .v1Create _ => true
  | _ => false

def Request.isManualVerify : Request → Bool
  | .manualVerify _ => true
  | _ => false

/-- Manual verification is the one request that asks for no e-mail. -/
def Request.checksEmail (request : Request) : Bool := !request.isManualVerify

def Request.isV1Finaliser : Request → Bool
  | .v1SubmitSignature _ | .v1Detect _ => true
  | _ => false

def Request.changesSession : Request → Bool
  | .v1SubmitSignature _ | .v1Detect _ | .v1Cancel _ => true
  | _ => false

def Request.isLegacyFinaliser : Request → Bool
  | .confirm _ | .recheck _ | .detect _ => true
  | _ => false

def Request.editsEvents : Request → Bool
  | .createEvent _ _ | .updateEvent _ _ _ | .deleteEvent _ _ => true
  | _ => false

def Request.keepsEvents : Request → Bool
  | .deleteEvent _ _ => false
  | _ => true

def succeeded : (op : Op) → Reply op → Bool
  | .sql _, .error _ => false
  | .redis _, .error _ => false
  | _, _ => true

def stepSucceeds (p : Platform) (cfg : Service) (label : ServiceLabel) : Bool :=
  match label, Machine.performed cfg label with
  | .step _ choice, some op => (exec p choice op cfg.world).all fun (reply, _) => succeeded op reply
  | _, _ => true

theorem stepSucceeds_reply {p : Platform} {cfg : Service} {index : Nat} {choice : Choice} {op : Op}
    {thread : ServiceThread} {reply : Reply op} {after : World}
    (succeeds : stepSucceeds p cfg (.step index choice) = true)
    (performs : Machine.Performs cfg (.step index choice : ServiceLabel) index thread op)
    (executed : exec p choice op cfg.world = some (reply, after)) : succeeded op reply = true := by
  simp only [stepSucceeds, performs.performed] at succeeds
  rw [executed] at succeeds
  exact succeeds

/-- Nothing has been paid or set up yet; events, landed transactions and minted
identifiers are arbitrary. -/
structure Fresh (cfg : Service) : Prop where
  threads : cfg.threads = []
  invoices : cfg.world.invoices = []
  checkouts : cfg.world.checkouts = []
  sessions : cfg.world.sessions = []
  cache : cfg.world.cache = []

end Payknot
