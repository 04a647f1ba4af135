import Payknot.Finalisation
import Payknot.Origins

/-! What the routines that the handlers share perform, whatever they are answered: they look
around, and keep the books that no session, checkout or invoice hash hangs on. -/
namespace Payknot
open GoText Interleaving

variable {p : Platform} {Value Result : Type}

/-- Whatever it is answered, the program performs operations of one kind. -/
def Only (kind : Op → Bool) (program : Handler Result) : Prop :=
  Within (fun op => kind op = true) program

namespace Only
variable {kind kind' : Op → Bool}

theorem pure (answer : Result) : Only kind (Pure.pure answer : Handler Result) := Within.pure answer

theorem bind {program : Handler Value} {next : Value → Handler Result} (first : Only kind program)
    (rest : ∀ value, Only kind (next value)) : Only kind (program >>= next) :=
  Within.bind first rest

theorem perform {op : Op} (is_kind : kind op = true) : Only kind (Program.perform op : Handler (Reply op)) :=
  Within.perform is_kind

theorem mono {program : Handler Result} (only : Only kind program)
    (weaker : ∀ op, kind op = true → kind' op = true) : Only kind' program :=
  Within.mono only weaker

theorem ensures {program : Handler Result} (only : Only kind program) {perform : Performing Reply World}
    {held : World → Prop} {w : World} (start : held w)
    (keeps : ∀ op w reply after, kind op = true → perform op w reply after → held w → held after) :
    program.Ensures perform (fun _ => held) w :=
  (only []).ensures held start keeps

end Only

/-- Operations beside the sessions, the checkouts, the cache and the identifiers. -/
def Op.minor (op : Op) : Bool :=
  op.writes.all fun part => part ∉ [Part.sessions, .checkouts, .cache, .minted]

section Minor
variable {op : Op} {w after : World} {reply : Reply op}

structure Beside (w after : World) : Prop where
  sessions : after.sessions = w.sessions
  checkouts : after.checkouts = w.checkouts
  cache : after.cache = w.cache
  minted : after.minted = w.minted
  now : after.now = w.now

theorem Beside.refl (w : World) : Beside w w := ⟨rfl, rfl, rfl, rfl, rfl⟩

theorem Beside.trans {middle : World} (first : Beside w middle) (rest : Beside middle after) : Beside w after :=
  ⟨rest.sessions.trans first.sessions, rest.checkouts.trans first.checkouts, rest.cache.trans first.cache,
    rest.minted.trans first.minted, rest.now.trans first.now⟩

theorem minted_kept (performed : performs p op w reply after) : w.minted ⊆ after.minted := by
  obtain ⟨choice, _, executed⟩ := performed
  rcases exec_minted (p := p) executed with same | ⟨_, _, _, drawn⟩
  · rw [same]
    exact List.Subset.refl _
  · rw [drawn]
    exact List.subset_cons_self _ _

theorem performs_minor (minor : op.minor = true) (performed : performs p op w reply after) : Beside w after := by
  have quiet (part : Part) (major : part ∈ [Part.sessions, .checkouts, .cache, .minted]) : part ∉ op.writes := by
    intro written
    have unwritten := List.all_eq_true.mp minor part written
    simp [major] at unwritten
  refine ⟨?_, ?_, ?_, ?_, ?_⟩
  · exact performs_frame .sessions performed (quiet _ (by decide))
  · exact performs_frame .checkouts performed (quiet _ (by decide))
  · exact performs_frame .cache performed (quiet _ (by decide))
  · exact performs_frame .minted performed (quiet _ (by decide))
  · exact performs_frame .clock performed op.writes_outside.2

-- A routine that performs minor operations only.
theorem Only.beside {program : Handler Result} (only : Only Op.minor program) {perform : Performing Reply World}
    (refines : ∀ op w reply after, perform op w reply after → performs p op w reply after) (w : World) :
    program.Ensures perform (fun _ after => Beside w after) w :=
  only.ensures (Beside.refl w) fun op middle reply after minor performed before =>
    before.trans (performs_minor minor (refines op middle reply after performed))

end Minor

namespace Only

-- Each routine is taken apart at its binds and branches; the rules above are not unfolded.

theorem fetchTransaction (signature : String) : Only Op.minor (Payknot.fetchTransaction p signature) := by
  unfold Payknot.fetchTransaction getRpcClientWithFailover rpc
  repeat' with_reducible first | exact pure _ | exact perform rfl | refine bind ?_ fun _ => ?_ | split

theorem verify (reference signature : String) (amount : Int64) (merchant : String) :
    Only Op.minor (verifyTransactionForMerchantWithSender p reference signature amount merchant) := by
  unfold verifyTransactionForMerchantWithSender
  repeat' with_reducible first
    | exact pure _ | exact fetchTransaction _ | refine bind ?_ fun _ => ?_ | split

theorem verifyDirect (signature : String) (amount : Int64) (merchant sender : String) :
    Only Op.minor (verifyDirectTransferForMerchant p signature amount merchant sender) := by
  unfold verifyDirectTransferForMerchant
  repeat' with_reducible first
    | exact pure _ | exact fetchTransaction _ | refine bind ?_ fun _ => ?_ | split

theorem detectAmong (reference : String) (amount : Int64) (merchant : String)
    (signatures : List SignatureInfo) :
    Only Op.minor (Payknot.detectAmong p reference amount merchant signatures) := by
  induction signatures with
  | nil => exact pure _
  | cons info rest ih =>
      unfold Payknot.detectAmong
      repeat' with_reducible first
        | exact pure _ | exact ih | exact verify _ _ _ _ | refine bind ?_ fun _ => ?_ | split

theorem detectSignature (reference : String) (amount : Int64) (merchant : String) :
    Only Op.minor (detectSignatureByReferenceForMerchant p reference amount merchant) := by
  unfold detectSignatureByReferenceForMerchant getRpcClientWithFailover rpc
  repeat' with_reducible first
    | exact pure _ | exact perform rfl | exact detectAmong _ _ _ _ | refine bind ?_ fun _ => ?_ | split

theorem checkEmail (eventID : Int64) (otherThan : Option String) (data : Option Object) :
    Only Op.minor (Payknot.checkEmail p eventID otherThan data) := by
  unfold Payknot.checkEmail sql
  repeat' with_reducible first
    | exact pure _ | exact perform rfl | refine bind ?_ fun _ => ?_ | split | dsimp only

theorem getCheckoutStatus (reference : String) : Only Op.minor (getCheckoutStatusByReference reference) := by
  unfold getCheckoutStatusByReference sql
  repeat' with_reducible first | exact pure _ | exact perform rfl | refine bind ?_ fun _ => ?_ | split

theorem respond (reference : String) : Only Op.minor (respondCheckoutStatus reference) :=
  bind (getCheckoutStatus reference) fun _ => pure _

theorem replayed (ownerEmail idemKey endpoint : String) :
    Only Op.minor (Payknot.replayed ownerEmail idemKey endpoint) := by
  unfold Payknot.replayed loadIdempotentResponse sql
  repeat' with_reducible first | exact pure _ | exact perform rfl | refine bind ?_ fun _ => ?_ | split

theorem remember (ownerEmail idemKey endpoint : String) (payload : Content) :
    Only Op.minor (Payknot.remember ownerEmail idemKey endpoint payload) := by
  unfold Payknot.remember saveIdempotentResponse sql
  repeat' with_reducible first | exact pure _ | exact perform rfl | refine bind ?_ fun _ => ?_ | split

theorem emitWebhook (event : String) (payload : List (String × String)) :
    Only Op.minor (emitPaymentWebhook p event payload) := by
  unfold emitPaymentWebhook timeNow
  repeat' with_reducible first | exact pure _ | exact perform rfl | refine bind ?_ fun _ => ?_ | split

theorem selectEvent (eventID : Int64) (slug : String) : Only Op.minor (selectSessionEvent eventID slug) := by
  unfold selectSessionEvent sql
  split <;> exact perform rfl

theorem tryEventSlugs (base : String) (left : Nat) (slug : String) :
    Only Op.minor (Payknot.tryEventSlugs base left slug) := by
  induction left generalizing slug with
  | zero =>
      unfold Payknot.tryEventSlugs timeNow
      exact bind (perform rfl) fun _ => pure _
  | succ left ih =>
      unfold Payknot.tryEventSlugs sql timeNow
      repeat' with_reducible first
        | exact pure _ | exact perform rfl | exact ih _ | refine bind ?_ fun _ => ?_ | split

theorem createEvent (claims : Option AuthClaims) (r : HttpRequest CreateEventRequest) :
    Only Op.minor (Payknot.createEvent p claims r) := by
  unfold Payknot.createEvent ensureUniqueEventSlug sql
  repeat' with_reducible first
    | exact pure _ | exact perform rfl | exact tryEventSlugs _ _ _ | refine bind ?_ fun _ => ?_ | split
    | dsimp only

theorem updateEvent (body : Option CreateEventRequest) (eventID : Int64) (ownerEmail : String) :
    Only Op.minor (Payknot.updateEvent p body eventID ownerEmail) := by
  unfold Payknot.updateEvent sql
  repeat' with_reducible first | exact pure _ | exact perform rfl | refine bind ?_ fun _ => ?_ | split

theorem verifySession (r : V1Request) : Only Op.minor (v1VerifyPaymentSession r) := by
  unfold v1VerifyPaymentSession sql
  repeat' with_reducible first
    | exact pure _ | exact perform rfl | exact getCheckoutStatus _ | refine bind ?_ fun _ => ?_ | split

theorem sessionStatus (r : V1Request) : Only Op.minor (v1GetPaymentSessionStatus p r) := by
  unfold v1GetPaymentSessionStatus sql
  repeat' with_reducible first
    | exact pure _ | exact perform rfl | refine bind ?_ fun _ => ?_ | split | dsimp only

theorem walletInstructions (r : V1Request) : Only Op.minor (v1GetWalletInstructions p r) := by
  unfold v1GetWalletInstructions sql
  repeat' with_reducible first | exact pure _ | exact perform rfl | refine bind ?_ fun _ => ?_ | split

theorem qrSession (r : V1Request) : Only Op.minor (v1GetQrSession p r) := by
  unfold v1GetQrSession sql
  repeat' with_reducible first | exact pure _ | exact perform rfl | refine bind ?_ fun _ => ?_ | split

end Only
end Payknot
