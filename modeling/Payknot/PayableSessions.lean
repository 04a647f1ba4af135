import Payknot.CancelledInvoices
import Payknot.SessionCreation
import Payknot.Routines
import Payknot.AbandonedSessions
import Payknot.Serving

/-! Sessions that hand out payment instructions. Whether a session is payable is read off
its row alone, whether it can be settled hangs on its hash in the cache, which has an
expiry and deleters of its own. -/
namespace Payknot
open GoText Interleaving Machine

section SettingUp
variable {p : Platform} {Result : Type}

/-- Operations that neither write nor date a hash, nor put a session where it awaits its
payment. -/
def Op.setsNothingUp : Op → Bool
  | .redis (.hSet _ _) | .redis (.expire _ _) => false
  | .sql (.insertSession _) | .sql (.setSessionState _ .awaitingPayment) => false
  | _ => true

abbrev SetsNoneUp (program : Handler Result) : Prop := Only Op.setsNothingUp program

namespace SetsNoneUp

theorem minor {program : Handler Result} (only : Only Op.minor program) : SetsNoneUp program := by
  refine only.mono fun op is_minor => ?_
  cases op with
  | sql statement =>
      cases statement with
      | insertSession | setSessionState => cases is_minor
      | _ => rfl
  | redis command =>
      cases command with
      | hSet | expire => cases is_minor
      | _ => rfl
  | _ => rfl

theorem finalizePaidCheckout (reference signature : String) (invoiceData : InvoiceHash) (amount : Int64) :
    SetsNoneUp (Payknot.finalizePaidCheckout p reference signature invoiceData amount) := by
  unfold Payknot.finalizePaidCheckout sql
  repeat' with_reducible first
    | exact Only.pure _ | exact Only.perform rfl | exact minor (Only.checkEmail _ _ _)
    | refine Only.bind ?_ fun _ => ?_ | split

theorem failAttempt (id signature error : String) : SetsNoneUp (Payknot.failAttempt id signature error) := by
  unfold Payknot.failAttempt sql
  repeat' with_reducible first | exact Only.pure _ | exact Only.perform rfl | refine Only.bind ?_ fun _ => ?_

theorem settleSession (id signature reference : String) :
    SetsNoneUp (Payknot.settleSession id signature reference) := by
  unfold Payknot.settleSession sql redis
  repeat' with_reducible first | exact Only.pure _ | exact Only.perform rfl | refine Only.bind ?_ fun _ => ?_

theorem recoverRows (rows : List CheckoutRecoveryRow) : SetsNoneUp (Payknot.recoverRows p rows) := by
  induction rows with
  | nil => exact Only.pure _
  | cons row rest ih =>
      unfold Payknot.recoverRows sql timeNow
      repeat' with_reducible first
        | exact Only.pure _ | exact Only.perform rfl | exact ih | exact minor (Only.verify _ _ _ _)
        | refine Only.bind ?_ fun _ => ?_ | split

theorem confirm (r : HttpRequest SignatureRequest) : SetsNoneUp (confirmCheckoutPayment p r) := by
  unfold confirmCheckoutPayment redis sql verifyTransactionForMerchant
  repeat' with_reducible first
    | exact Only.pure _ | exact Only.perform rfl | exact minor (Only.verify _ _ _ _)
    | exact finalizePaidCheckout _ _ _ _ | exact minor (Only.respond _)
    | refine Only.bind ?_ fun _ => ?_ | split | dsimp only

theorem recheck (r : HttpRequest SignatureRequest) : SetsNoneUp (recheckCheckoutPayment p r) := by
  unfold recheckCheckoutPayment recheckCheckoutPayment.unpaid redis sql verifyTransactionForMerchant
  repeat' with_reducible first
    | exact Only.pure _ | exact Only.perform rfl | exact minor (Only.verify _ _ _ _)
    | exact finalizePaidCheckout _ _ _ _ | exact minor (Only.respond _)
    | refine Only.bind ?_ fun _ => ?_ | split | dsimp only

theorem detect (r : HttpRequest ReferenceRequest) : SetsNoneUp (detectCheckoutPayment p r) := by
  unfold detectCheckoutPayment detectCheckoutPayment.unpaid redis
  repeat' with_reducible first
    | exact Only.pure _ | exact Only.perform rfl | exact minor (Only.detectSignature _ _ _)
    | exact finalizePaidCheckout _ _ _ _ | exact minor (Only.getCheckoutStatus _) | exact minor (Only.respond _)
    | refine Only.bind ?_ fun _ => ?_ | split | dsimp only

theorem submitSignature (r : V1Request) : SetsNoneUp (v1SubmitSignature p r) := by
  unfold v1SubmitSignature redis sql verifyTransactionForMerchant
  repeat' with_reducible first
    | exact Only.pure _ | exact Only.perform rfl | exact minor (Only.replayed _ _ _) | exact minor (Only.remember _ _ _ _)
    | exact minor (Only.verify _ _ _ _) | exact finalizePaidCheckout _ _ _ _
    | exact minor (Only.getCheckoutStatus _) | exact failAttempt _ _ _ | exact settleSession _ _ _
    | exact minor (Only.emitWebhook _ _) | refine Only.bind ?_ fun _ => ?_ | split | dsimp only

theorem detectPayment (r : V1Request) : SetsNoneUp (v1DetectPayment p r) := by
  unfold v1DetectPayment redis sql
  repeat' with_reducible first
    | exact Only.pure _ | exact Only.perform rfl | exact minor (Only.detectSignature _ _ _)
    | exact finalizePaidCheckout _ _ _ _ | exact minor (Only.getCheckoutStatus _) | exact minor (Only.respond _)
    | exact settleSession _ _ _ | exact minor (Only.emitWebhook _ _)
    | refine Only.bind ?_ fun _ => ?_ | split

theorem cancelSession (r : V1Request) : SetsNoneUp (v1CancelPaymentSession p r) := by
  unfold v1CancelPaymentSession redis sql
  repeat' with_reducible first
    | exact Only.pure _ | exact Only.perform rfl | exact minor (Only.replayed _ _ _) | exact minor (Only.remember _ _ _ _)
    | exact minor (Only.emitWebhook _ _) | refine Only.bind ?_ fun _ => ?_ | split

theorem cancelInvoice (r : HttpRequest ReferenceRequest) : SetsNoneUp (cancelCheckoutInvoice p r) := by
  unfold cancelCheckoutInvoice redis sql
  repeat' with_reducible first | exact Only.pure _ | exact Only.perform rfl | refine Only.bind ?_ fun _ => ?_ | split

theorem manualVerify (r : HttpRequest ManualVerifyRequest) : SetsNoneUp (manualVerifyCheckoutPayment p r) := by
  unfold manualVerifyCheckoutPayment sql newUUID
  repeat' with_reducible first
    | exact Only.pure _ | exact Only.perform rfl | exact minor (Only.verifyDirect _ _ _ _)
    | refine Only.bind ?_ fun _ => ?_ | split | dsimp only

theorem recoverErrors : SetsNoneUp (recoverErrorInvoices p) := by
  unfold recoverErrorInvoices sql
  repeat' with_reducible first
    | exact Only.pure _ | exact Only.perform rfl | exact recoverRows _ | refine Only.bind ?_ fun _ => ?_ | split

theorem deleteEvent (eventID : Int64) (ownerEmail : String) : SetsNoneUp (Payknot.deleteEvent eventID ownerEmail) := by
  unfold Payknot.deleteEvent sql
  repeat' with_reducible first | exact Only.pure _ | exact Only.perform rfl | refine Only.bind ?_ fun _ => ?_ | split

theorem handler {request : Request} (other : request.opensSession = false) :
    SetsNoneUp (Payknot.handler p request) := by
  unfold Payknot.handler
  cases request with
  | createInvoice | v1Create => cases other
  | cancelInvoice r => exact cancelInvoice r
  | confirm r => exact confirm r
  | recheck r => exact recheck r
  | detect r => exact detect r
  | manualVerify r => exact manualVerify r
  | v1SubmitSignature r => exact submitSignature r
  | v1Detect r => exact detectPayment r
  | v1Cancel r => exact cancelSession r
  | v1Status r => exact minor (Only.sessionStatus r)
  | v1WalletInstructions r => exact minor (Only.walletInstructions r)
  | v1Verify r => exact minor (Only.verifySession r)
  | v1Qr r => exact minor (Only.qrSession r)
  | createEvent claims r => exact minor (Only.createEvent claims r)
  | updateEvent body eventID ownerEmail => exact minor (Only.updateEvent body eventID ownerEmail)
  | deleteEvent eventID ownerEmail => exact deleteEvent eventID ownerEmail
  | recoverErrorInvoices => exact recoverErrors

end SetsNoneUp
end SettingUp

section Backing
variable {p : Platform} {op : Op} {w after : World} {reply : Reply op}

structure BackedBy (w : World) (row : SessionRow) (cached : CachedInvoice) : Prop where
  found : w.cache.find? (·.key = redisKey row.reference) = some cached
  amount : parseInt cached.hash.amount = .ok row.amountAtomic
  merchant : cached.hash.merchantWallet = row.merchantWallet

def SessionRow.due (row : SessionRow) (now : Time) : Bool := row.state = .awaitingPayment && now < row.expiresAt

structure AllBacked (w : World) : Prop where
  backed : ∀ row ∈ w.sessions, row.due w.now = true →
    ∃ cached, BackedBy w row cached ∧ ∀ deadline ∈ cached.deadline, row.expiresAt ≤ deadline
  minted : ∀ row ∈ w.sessions, row.reference ∈ w.minted
  hashes : HashesMinted w

def spares (choice : Choice) (w : World) : Op → Bool
  | .redis (.del key) => choice.fault.isSome ||
      w.sessions.all fun row => !row.due w.now || redisKey row.reference ≠ key
  | _ => true

def Sparing (p : Platform) : Performing Reply World := fun op w reply after =>
  ∃ choice, spares choice w op = true ∧ exec p choice op w = some (reply, after)

theorem find_filter_kept {Value : Type} {selected kept : Value → Bool} {values : List Value} {value : Value}
    (found : values.find? selected = some value) (stays : kept value = true) :
    (values.filter kept).find? selected = some value := by
  induction values with
  | nil => cases found
  | cons head rest ih =>
      by_cases chosen : selected head = true
      · rw [List.find?_cons_of_pos chosen, Option.some.injEq] at found
        subst found
        rw [List.filter_cons_of_pos stays, List.find?_cons_of_pos chosen]
      · rw [List.find?_cons_of_neg chosen] at found
        by_cases keeps : kept head = true
        · rw [List.filter_cons_of_pos keeps, List.find?_cons_of_neg chosen]
          exact ih found
        · rw [List.filter_cons_of_neg keeps]
          exact ih found

theorem BackedBy.of_same {row : SessionRow} {cached : CachedInvoice} (backed : BackedBy w row cached)
    (same : after.cache = w.cache) : BackedBy after row cached :=
  ⟨by rw [same]; exact backed.found, backed.amount, backed.merchant⟩

theorem BackedBy.key {row : SessionRow} {cached : CachedInvoice} (backed : BackedBy w row cached) :
    cached.key = redisKey row.reference := by
  simpa using List.find?_some backed.found

-- A session was there before, and one that awaits its payment as it is.
theorem session_before (quiet : op.setsNothingUp = true) {choice : Choice}
    (executed : exec p choice op w = some (reply, after)) {row : SessionRow} (member : row ∈ after.sessions) :
    ∃ old ∈ w.sessions, old.reference = row.reference ∧ (row.state = .awaitingPayment → old = row) := by
  rcases exec_sessions executed with same | ⟨session, _, _, _, rfl, _⟩ | ⟨id, canonical, state, rfl, _, updated⟩ |
    ⟨id, canonical, signature, rfl, _, updated⟩ | ⟨id, ownerEmail, rfl, removed⟩
  · rw [same] at member
    exact ⟨row, member, rfl, fun _ => rfl⟩
  · cases quiet
  · rw [updated] at member
    obtain ⟨old, among, ⟨_, rfl⟩ | ⟨_, rfl⟩⟩ := mem_updateWhere member
    · refine ⟨old, among, rfl, ?_⟩
      rintro rfl
      cases quiet
    · exact ⟨row, among, rfl, fun _ => rfl⟩
  · rw [updated] at member
    obtain ⟨old, among, ⟨_, rfl⟩ | ⟨_, rfl⟩⟩ := mem_updateWhere member
    · exact ⟨old, among, rfl, by rintro ⟨⟩⟩
    · exact ⟨row, among, rfl, fun _ => rfl⟩
  · rw [removed] at member
    exact ⟨row, (List.mem_filter.mp member).1, rfl, fun _ => rfl⟩

-- What sets no session up leaves every session that is due its hash.
theorem AllBacked.kept (held : AllBacked w) (quiet : op.setsNothingUp = true) (performed : Sparing p op w reply after) :
    AllBacked after := by
  obtain ⟨choice, spared, executed⟩ := performed
  constructor
  · intro row member due
    obtain ⟨old, before, _, same⟩ := session_before quiet executed member
    rw [exec_now executed] at due
    obtain rfl := same (by simpa using (Bool.and_eq_true _ _).mp due |>.1)
    obtain ⟨cached, backed, outlasts⟩ := held.backed old before due
    refine ⟨cached, ?_, outlasts⟩
    rcases exec_cache executed with same | ⟨_, _, rfl, _⟩ | ⟨_, _, rfl, _⟩ | ⟨key, rfl, _⟩
    · exact backed.of_same same
    · cases quiet
    · cases quiet
    · rcases settle_cases (Option.some.inj executed) with ⟨_, _, rfl⟩ | ⟨_, _, ran, is_up⟩
      · exact backed
      · cases ran
        simp only [spares, is_up, Option.isSome_none, Bool.false_or, List.all_eq_true] at spared
        have apart := spared old before
        rw [due, Bool.not_true, Bool.false_or] at apart
        refine ⟨find_filter_kept backed.found ?_, backed.amount, backed.merchant⟩
        rwa [backed.key]
  · intro row member
    obtain ⟨old, before, same, _⟩ := session_before quiet executed member
    rw [← same]
    exact minted_kept ⟨choice, trivial, executed⟩ (held.minted old before)
  · intro cached member reference is_key
    refine minted_kept ⟨choice, trivial, executed⟩ (held.hashes cached ?_ reference is_key)
    rcases exec_cache executed with same | ⟨_, _, rfl, _⟩ | ⟨_, _, rfl, _⟩ | ⟨key, rfl, removed⟩
    · rwa [same] at member
    · cases quiet
    · cases quiet
    · rw [removed] at member
      exact (List.mem_filter.mp member).1

theorem AllBacked.occurred {event : WorldEvent} (held : AllBacked w) (occurred : occur event w = some after) :
    AllBacked after := by
  have sessions := occur_frame .sessions occurred (by decide)
  have minted := occur_frame .minted occurred (by decide)
  refine ⟨?_, ?_, ?_⟩
  · intro row member due
    rw [sessions] at member
    rcases occur_cases occurred with ⟨elapsed, _, rfl⟩ | ⟨landed, _, _, rfl⟩
    · simp only [SessionRow.due, Bool.and_eq_true, decide_eq_true_eq] at due
      obtain ⟨awaits, in_time⟩ := due
      have was_due : row.due w.now = true := by
        simp only [SessionRow.due, Bool.and_eq_true, decide_eq_true_eq]
        exact ⟨awaits, lt_of_le_of_lt (Int.le_add_of_nonneg_right (Int.natCast_nonneg _)) in_time⟩
      obtain ⟨cached, backed, outlasts⟩ := held.backed row member was_due
      refine ⟨cached, ⟨find_filter_kept backed.found ?_, backed.amount, backed.merchant⟩, outlasts⟩
      rw [Option.all_eq_true]
      intro deadline set
      exact decide_eq_true (lt_of_lt_of_le in_time (outlasts deadline set))
    · obtain ⟨cached, backed, outlasts⟩ := held.backed row member due
      exact ⟨cached, backed.of_same rfl, outlasts⟩
  · intro row member
    rw [sessions] at member
    rw [minted]
    exact held.minted row member
  · intro cached member reference is_key
    rw [minted]
    exact held.hashes cached (occur_cache occurred member) reference is_key

end Backing

section Opening
variable {p : Platform} {w after : World} {reference : String} {hash : InvoiceHash}

structure Unused (w : World) (reference : String) : Prop where
  minted : reference ∈ w.minted
  cache : ∀ cached ∈ w.cache, cached.key ≠ redisKey reference
  sessions : ∀ row ∈ w.sessions, row.reference ≠ reference

/-- The hash is there for another twenty minutes at least, and no session is yet. -/
structure Hashed (w : World) (reference : String) (hash : InvoiceHash) : Prop where
  minted : reference ∈ w.minted
  cached : ∃ cached, w.cache.find? (·.key = redisKey reference) = some cached ∧ cached.hash = hash ∧
    ∀ deadline ∈ cached.deadline, w.now + 20 * minute ≤ deadline
  sessions : ∀ row ∈ w.sessions, row.reference ≠ reference

theorem AllBacked.drawn (held : AllBacked w) (performed : Sparing p .newUUID w reference after) :
    AllBacked after ∧ Unused after reference ∧ p.uuidText reference = some reference := by
  have kept := held.kept rfl performed
  obtain ⟨choice, _, executed⟩ := performed
  obtain ⟨unused, canonical, _, rfl⟩ := exec_newUUID executed
  refine ⟨kept, ⟨List.mem_cons_self, ?_, ?_⟩, canonical⟩
  · intro cached member same
    exact unused (held.hashes cached member reference same)
  · rintro row member rfl
    exact unused (held.minted row member)

theorem AllBacked.hashed (held : AllBacked w) (unused : Unused w reference) {reply : Except Fault Unit}
    (performed : Sparing p (.redis (.hSet (redisKey reference) hash)) w reply after) :
    (∃ fault, reply = .error fault ∧ after = w) ∨ reply = .ok () ∧ AllBacked after ∧ Hashed after reference hash := by
  obtain ⟨choice, _, executed⟩ := performed
  change exec p choice (.redis (.hSet (redisKey reference) hash)) w = some (reply, after) at executed
  rcases exec_redis executed with ⟨fault, failed⟩ | ⟨value, same, ran⟩
  · exact .inl ⟨_, failed⟩
  · have undated : w.cache.find? (·.key = redisKey reference) = none := by
      simpa using unused.cache
    cases ran
    refine .inr ⟨same, ⟨?_, held.minted, ?_⟩, unused.minted, ⟨_, List.find?_cons_of_pos (by simp), rfl, ?_⟩,
      unused.sessions⟩
    · intro row member due
      obtain ⟨cached, backed, outlasts⟩ := held.backed row member due
      have apart : redisKey reference ≠ redisKey row.reference := fun same =>
        unused.sessions row member (redisKey_injective same).symm
      refine ⟨cached, ⟨?_, backed.amount, backed.merchant⟩, outlasts⟩
      rw [List.find?_cons_of_neg (by simpa using apart)]
      refine find_filter_kept backed.found ?_
      rw [backed.key]
      simpa using apart.symm
    · intro cached member other is_key
      rcases List.mem_cons.mp member with rfl | old
      · obtain rfl := redisKey_injective is_key
        exact unused.minted
      · exact held.hashes cached (List.mem_filter.mp old).1 other is_key
    · simp [undated]

-- An update that leaves alone what is asked for.
theorem find_updated {Row : Type} {selected asked : Row → Bool} {set : Row → Row}
    (same : ∀ row, asked (set row) = asked row) (rows : List Row) :
    (updateWhere selected set rows).find? asked =
      (rows.find? asked).map fun row => if selected row then set row else row := by
  unfold updateWhere
  rw [List.find?_map]
  have asks : (asked ∘ fun row => if selected row = true then set row else row) = asked := by
    funext row
    simp only [Function.comp_apply]
    split
    · exact same row
    · rfl
  rw [asks]

theorem AllBacked.dated (held : AllBacked w) (hashed : Hashed w reference hash) {reply : Except Fault Unit}
    (performed : Sparing p (.redis (.expire (redisKey reference) (20 * minute))) w reply after) :
    AllBacked after ∧ Hashed after reference hash := by
  obtain ⟨choice, _, executed⟩ := performed
  change exec p choice (.redis (.expire (redisKey reference) (20 * minute))) w = some (reply, after) at executed
  rcases exec_redis executed with ⟨_, _, rfl⟩ | ⟨value, _, ran⟩
  · exact ⟨held, hashed⟩
  · cases ran
    have still (key : String) :
        (setDeadline (redisKey reference) (w.now + 20 * minute) w.cache).find? (·.key = key) =
          (w.cache.find? (·.key = key)).map fun cached => if cached.key = redisKey reference then
            { cached with deadline := some (w.now + 20 * minute) } else cached := by
      unfold setDeadline
      refine (find_updated ?_ _).trans ?_
      · exact fun _ => rfl
      · simp
    refine ⟨⟨?_, held.minted, ?_⟩, hashed.minted, ?_, hashed.sessions⟩
    · intro row member due
      obtain ⟨cached, backed, outlasts⟩ := held.backed row member due
      have apart : cached.key ≠ redisKey reference := by
        rw [backed.key]
        exact fun same => hashed.sessions row member (redisKey_injective same)
      refine ⟨cached, ⟨?_, backed.amount, backed.merchant⟩, outlasts⟩
      rw [still, backed.found, Option.map_some, if_neg apart]
    · intro cached member other is_key
      obtain ⟨old, among, ⟨_, rfl⟩ | ⟨_, rfl⟩⟩ := mem_updateWhere member
      · exact held.hashes old among other is_key
      · exact held.hashes cached among other is_key
    · obtain ⟨cached, found, same, _⟩ := hashed.cached
      have is_key : cached.key = redisKey reference := by simpa using List.find?_some found
      refine ⟨{ cached with deadline := some (w.now + 20 * minute) }, ?_, same, ?_⟩
      · rw [still, found, Option.map_some, if_pos is_key]
      · rintro _ ⟨⟩
        exact le_refl _

-- The session of a hash that was stored is backed by it.
theorem AllBacked.inserted (held : AllBacked w) {event : EventRow} {walletAddress paymentMethod : String}
    {data : Option Object} (hashed : Hashed w reference (invoiceHash p event walletAddress paymentMethod data))
    (canonical : p.uuidText reference = some reference) {session : NewSession} (named : session.reference = reference)
    (amount : session.amountAtomic = event.columns.amountUSDC)
    (merchant : session.merchantWallet = event.columns.merchantWallet)
    (expires : session.expiresAt = w.now + 20 * minute) {reply : Except Fault Unit}
    (performed : Sparing p (.sql (.insertSession session)) w reply after) : AllBacked after := by
  obtain ⟨choice, _, executed⟩ := performed
  change exec p choice (.sql (.insertSession session)) w = some (reply, after) at executed
  rcases exec_sql executed with ⟨_, _, rfl⟩ | ⟨value, _, ran⟩
  · exact held
  · obtain ⟨id, named', stored, _, cast, _, _, rfl⟩ := runInsertSession_ok ran
    rw [named, canonical, Option.some.injEq] at cast
    subst cast
    refine ⟨?_, ?_, held.hashes⟩
    · intro row member due
      rcases List.mem_append.mp member with old | new
      · obtain ⟨cached, backed, outlasts⟩ := held.backed row old due
        exact ⟨cached, backed.of_same rfl, outlasts⟩
      · obtain rfl := List.mem_singleton.mp new
        obtain ⟨cached, found, same, outlasts⟩ := hashed.cached
        refine ⟨cached, ⟨found, ?_, ?_⟩, ?_⟩
        · rw [same]
          simp [invoiceHash, NewSession.row, amount]
        · rw [same]
          exact merchant.symm
        · intro deadline set
          change session.expiresAt ≤ deadline
          rw [expires]
          exact outlasts deadline set
    · intro row member
      rcases List.mem_append.mp member with old | new
      · exact held.minted row old
      · obtain rfl := List.mem_singleton.mp new
        exact hashed.minted

def KeepsBacked (p : Platform) {Result : Type} (program : Handler Result) : Prop :=
  ∀ w, AllBacked w → program.Ensures (Sparing p) (fun _ => AllBacked) w

namespace KeepsBacked
variable {Value Result : Type}

theorem quiet {program : Handler Result} (quiet : SetsNoneUp program) : KeepsBacked p program :=
  fun _ held => Only.ensures quiet held fun _ _ _ _ quiet performed held => held.kept quiet performed

theorem minor {program : Handler Result} (only : Only Op.minor program) : KeepsBacked p program :=
  quiet (SetsNoneUp.minor only)

theorem perform {op : Op} (sets : op.setsNothingUp = true) : KeepsBacked p (Program.perform op : Handler (Reply op)) :=
  quiet (Only.perform sets)

theorem pure (answer : Result) : KeepsBacked p (Pure.pure answer : Handler Result) :=
  quiet (Only.pure answer)

theorem bind {program : Handler Value} {next : Value → Handler Result} (first : KeepsBacked p program)
    (rest : ∀ value, KeepsBacked p (next value)) : KeepsBacked p (program >>= next) :=
  fun w held => (first w held).sequence fun value middle held => rest value middle held

theorem invoice (event : EventRow) (walletAddress paymentMethod : String) (data : Option Object) :
    KeepsBacked p (createCheckoutInvoice.invoice p event walletAddress paymentMethod data) := by
  intro w held
  unfold createCheckoutInvoice.invoice newUUID redis
  refine (Program.ensures_perform_bind _ _ _).mpr fun reference drawn performed => ?_
  obtain ⟨held, unused, _⟩ := held.drawn performed
  refine (Program.ensures_perform_bind _ _ _).mpr fun reply hashed performed => ?_
  rcases held.hashed unused performed with ⟨fault, rfl, rfl⟩ | ⟨rfl, held, stored⟩
  · rw [Program.ensures_pure]
    exact held
  · refine (Program.ensures_perform_bind _ _ _).mpr fun reply dated performed => ?_
    have held := (held.dated stored performed).1
    rcases reply with fault | _
    · rw [Program.ensures_pure]
      exact held
    · rw [Program.ensures_pure]
      exact held

theorem session (event : EventRow) (ownerEmail idemKey walletAddress paymentMethod : String) (data : Option Object) :
    KeepsBacked p (v1CreatePaymentSession.session p event ownerEmail idemKey walletAddress paymentMethod data) := by
  intro w held
  unfold v1CreatePaymentSession.session newUUID timeNow redis sql
  refine (Program.ensures_perform_bind _ _ _).mpr fun sessionID identified performed => ?_
  have held := held.kept rfl performed
  refine (Program.ensures_perform_bind _ _ _).mpr fun reference drawn performed => ?_
  obtain ⟨held, unused, canonical⟩ := held.drawn performed
  refine (Program.ensures_perform_bind _ _ _).mpr fun now timed performed => ?_
  obtain ⟨_, _, told⟩ := performed
  cases told
  dsimp only
  refine (Program.ensures_perform_bind _ _ _).mpr fun reply hashed performed => ?_
  have same_time : hashed.now = drawn.now := by
    obtain ⟨_, _, executed⟩ := performed
    exact exec_now executed
  rcases held.hashed unused performed with ⟨fault, rfl, rfl⟩ | ⟨rfl, held, stored⟩
  · rw [Program.ensures_pure]
    exact held
  · refine (Program.ensures_perform_bind _ _ _).mpr fun expiry dated performed => ?_
    have dating : dated.now = hashed.now := by
      obtain ⟨_, _, executed⟩ := performed
      exact exec_now executed
    obtain ⟨held, stored⟩ := held.dated stored performed
    refine (Program.ensures_perform_bind _ _ _).mpr fun reply inserted performed => ?_
    have held := held.inserted stored canonical rfl rfl rfl (by rw [dating, same_time]) performed
    rcases reply with fault | _
    · rw [Program.ensures_pure]
      exact held
    · exact (bind (minor (Only.remember _ _ _ _)) fun _ =>
        bind (minor (Only.emitWebhook _ _)) fun _ => pure _) inserted held

theorem handler (request : Request) : KeepsBacked p (Payknot.handler p request) := by
  cases request with
  | createInvoice r =>
      change KeepsBacked p (createCheckoutInvoice p r)
      unfold createCheckoutInvoice ensureParticipantEmailAvailable sql timeNow
      repeat' with_reducible first
        | exact pure _ | exact perform rfl | exact minor (Only.checkEmail _ _ _)
        | exact invoice _ _ _ _ | refine bind ?_ fun _ => ?_ | split | dsimp only
  | v1Create r =>
      change KeepsBacked p (v1CreatePaymentSession p r)
      unfold v1CreatePaymentSession ensureParticipantEmailAvailable timeNow
      repeat' with_reducible first
        | exact pure _ | exact perform rfl | exact minor (Only.checkEmail _ _ _)
        | exact minor (Only.replayed _ _ _) | exact minor (Only.selectEvent _ _)
        | exact session _ _ _ _ _ _ | refine bind ?_ fun _ => ?_ | split | dsimp only
  | _ => exact quiet (SetsNoneUp.handler rfl)

end KeepsBacked
end Opening

section Instructing
variable {p : Platform} {w : World} {row : SessionRow}

/-- The text by which a request for payment instructions names its session. -/
def Request.instructed : Request → Option String
  | .v1WalletInstructions r => some (sessionID r.path "/wallet-instructions")
  | .v1Qr r => some (sessionID r.path "/qr")
  | _ => none

inductive HandsOut (p : Platform) (row : SessionRow) : Content → Prop where
  | wallet : HandsOut p row (.walletInstructions row.reference row.merchantWallet row.amountAtomic
      (usdcMintAddress p) networkFromMint)
  | qr : HandsOut p row (.qrSession row.reference (solanaPayURL p row)
      ("https://api.qrserver.com/v1/create-qr-code/?size=320x320&data=" ++ p.queryEscape (solanaPayURL p row))
      networkFromMint)

/-- The hash of the session is live, and no submission for it is refused as expired. -/
structure Settleable (p : Platform) (w : World) (row : SessionRow) : Prop where
  live : ∃ cached, BackedBy w row cached
  taken : ∀ r : V1Request, p.uuidText (sessionID r.path "/submit-signature") = some row.id →
    (v1SubmitSignature p r).Ensures (Sound p) (fun answer _ => answer ≠ httpError "session expired" 404) w

/-- No session is asked for its instructions while it awaits its payment past its expiry. -/
def timely (p : Platform) (request : Request) (w : World) : Op → Bool
  | .sql (.selectSession id) => request.instructed.isNone || w.sessions.all fun row =>
      p.uuidText id ≠ some row.id || row.state ≠ .awaitingPayment || row.due w.now
  | _ => true

/-- The step deletes no hash of a session that is due, and asks none for its instructions
that is overdue. -/
def keepsPayable (p : Platform) (cfg : Service) : ServiceLabel → Bool
  | .step index choice =>
      match cfg.threads[index]? with
      | some ⟨request, _, .call op _⟩ => spares choice cfg.world op && timely p request cfg.world op
      | _ => true
  | _ => true

structure Instructed (p : Platform) (before : Service) (label : ServiceLabel) (after : Service)
    (content : Content) : Prop where
  stepped : (machine p).next before label = some after
  answered : ∃ index choice thread, label = .step index choice ∧ after.threads[index]? = some thread ∧
    thread.request.instructed.isSome = true ∧ thread.program = .ret (.responded 200 content)

def InstructionsRead (p : Platform) (request : Request) (log : History) (answer : Answer) : Prop :=
  ∀ id content, request.instructed = some id → answer = .responded 200 content →
    ∃ row, log = [⟨.sql (.selectSession id), .ok (some row)⟩] ∧ row.state = .awaitingPayment ∧
      HandsOut p row content

theorem instructions_read (request : Request) :
    (handler p request).Along (fun _ _ => True) (InstructionsRead p request) [] := by
  cases request with
  | v1WalletInstructions r =>
      unfold handler v1GetWalletInstructions
      by_cases posted : r.method = .post
      · simp only [posted, ne_eq, not_true_eq_false, if_false, along_sql, true_and]
        rintro (fault | (_ | row))
        · simp [InstructionsRead, httpError]
        · simp [InstructionsRead, httpError]
        · by_cases awaits : row.state = .awaitingPayment
          · simp only [awaits, not_true_eq_false, if_false, Program.along_pure]
            intro id content named same
            obtain rfl := Option.some.inj named
            rw [Answer.responded.injEq] at same
            exact ⟨row, rfl, awaits, same.2 ▸ .wallet⟩
          · simp [awaits, InstructionsRead, httpError]
      · simp [posted, InstructionsRead, httpError]
  | v1Qr r =>
      unfold handler v1GetQrSession
      by_cases posted : r.method = .post
      · simp only [posted, ne_eq, not_true_eq_false, if_false, along_sql, true_and]
        rintro (fault | (_ | row))
        · simp [InstructionsRead, httpError]
        · simp [InstructionsRead, httpError]
        · by_cases awaits : row.state = .awaitingPayment
          · simp only [awaits, not_true_eq_false, if_false, Program.along_pure]
            intro id content named same
            obtain rfl := Option.some.inj named
            rw [Answer.responded.injEq] at same
            exact ⟨row, rfl, awaits, same.2 ▸ .qr⟩
          · simp [awaits, InstructionsRead, httpError]
      · simp [posted, InstructionsRead, httpError]
  | _ =>
      exact (Program.along_grows _ _).mono (fun _ _ _ => trivial)
        (by simp [InstructionsRead, Request.instructed])

section Submitting

theorem ensures_any {Result : Type} (program : Handler Result) (w : World) :
    program.Ensures (Sound p) (fun _ _ => True) w := by
  have anything : program.Along (fun _ op => (fun _ : Op => True) op) (fun _ _ => True) [] :=
    (Program.along_grows program []).mono (fun _ _ _ => trivial) (fun _ _ _ => trivial)
  exact anything.ensures (fun _ => True) trivial fun _ _ _ _ _ _ _ => trivial

theorem sound_performs {op : Op} {after : World} {reply : Reply op} (performed : Sound p op w reply after) :
    performs p op w reply after := by
  obtain ⟨choice, _, executed⟩ := performed
  exact ⟨choice, trivial, executed⟩

-- Once the hash is found, nothing is refused as expired.
theorem submission_taken {cached : CachedInvoice} (found : w.sessions.find? (·.id = row.id) = some row)
    (awaits : row.state = .awaitingPayment) (backed : BackedBy w row cached) (r : V1Request)
    (cast : p.uuidText (sessionID r.path "/submit-signature") = some row.id) :
    (v1SubmitSignature p r).Ensures (Sound p) (fun answer _ => answer ≠ httpError "session expired" 404) w := by
  have other {status : Nat} {content : Content} (apart : status ≠ 404) (w : World) :
      (return .responded status content : Handler Answer).Ensures (Sound p)
        (fun answer _ => answer ≠ httpError "session expired" 404) w := by
    rw [Program.ensures_pure]
    rintro ⟨⟩
    exact apart rfl
  unfold v1SubmitSignature sql redis
  split
  · exact other (by decide) w
  · split
    · next body _ =>
      dsimp only
      split
      · exact other (by decide) w
      · refine (Program.ensures_perform_bind _ _ _).mpr fun reply read performed => ?_
        have ran := sound_sql performed
        simp only [Sql.run, withSessionId, cast, found, settle] at ran
        cases ran
        dsimp only
        have looking := @looks_replayed [] row.ownerEmail (trimSpace r.idempotencyKey) submitEndpoint
        refine (looking.ensures (fun after : World => after = w) rfl fun _ _ _ _ looks performed same =>
          (performs_looks looks (sound_performs performed)).trans same).sequence ?_
        rintro response w rfl
        cases response with
        | some content => exact other (by decide) _
        | none =>
            dsimp only
            rw [if_neg (fun closed => closed.1 awaits)]
            refine (Program.ensures_perform_bind _ _ _).mpr fun reply marked performed => ?_
            have same : marked.cache = w.cache :=
              performs_frame .cache (sound_performs performed) (by simp [Op.writes, Sql.writes])
            have found_hash : Redis.run (.hGetAll (redisKey row.reference)) marked =
                .ok (some cached.hash, marked) := by
              simp only [Redis.run, same, backed.found, Option.map_some]
            refine (Program.ensures_perform_bind _ _ _).mpr fun reply looked performed => ?_
            have ran := sound_redis performed
            rw [found_hash] at ran
            cases ran
            dsimp only
            refine (ensures_any _ _).sequence fun verdict verified _ => ?_
            cases verdict with
            | panicked =>
                rw [Program.ensures_pure]
                rintro ⟨⟩
            | rejected text =>
                refine (ensures_any _ _).sequence fun _ failed _ => ?_
                exact (ensures_any _ _).sequence fun _ _ _ => other (by decide) _
            | accepted sender =>
                refine (ensures_any _ _).sequence fun result finalised _ => ?_
                cases result with
                | error text =>
                    refine (ensures_any _ _).sequence fun _ failed _ => ?_
                    exact (ensures_any _ _).sequence fun _ _ _ => other (by decide) _
                | ok _ =>
                    refine (ensures_any _ _).sequence fun _ settled _ => ?_
                    refine (ensures_any _ _).sequence fun status read _ => ?_
                    refine (ensures_any _ _).sequence fun _ noted _ => ?_
                    exact (ensures_any _ _).sequence fun _ _ _ => other (by decide) _
    · exact other (by decide) w

end Submitting

section Runs
variable {first before after : Service} {label : ServiceLabel} {content : Content}

-- Once the request being served has been answered, nobody is being served.
theorem idle_of_answered {index : Nat} {choice : Choice} {thread : ServiceThread} (one : AtMostOneBusy before)
    (stepped : (machine p).next before (.step index choice) = some after)
    (found : after.threads[index]? = some thread) (ended : thread.program.finished = true) : idle after = true := by
  refine List.all_eq_true.mpr fun current member => ?_
  obtain ⟨place, at_place⟩ := List.mem_iff_getElem?.mp member
  by_cases same : place = index
  · subst same
    rw [found, Option.some.injEq] at at_place
    exact at_place ▸ ended
  · rcases thread_after stepped found with old | ⟨_, arrival, _⟩ |
      ⟨_, stepping, op, rest, _, _, at_index, program, _⟩
    · exact absurd rfl (old_elsewhere stepped old found)
    · cases arrival
    · have performs : Performs before (.step index choice : ServiceLabel) index stepping op :=
        ⟨⟨choice, rfl⟩, at_index, rest, program⟩
      rcases thread_after stepped at_place with old | ⟨_, arrival, _⟩ | ⟨_, _, _, _, _, moved, _⟩
      · exact one.others performs place current same old
      · cases arrival
      · cases moved
        exact absurd rfl same

theorem keepsPayable_step {cfg : Service} {index : Nat} {choice : Choice} {thread : ServiceThread} {op : Op}
    (keeps : keepsPayable p cfg (.step index choice) = true) (found : cfg.threads[index]? = some thread)
    (issues : thread.Issues op) : spares choice cfg.world op = true ∧ timely p thread.request cfg.world op = true := by
  obtain ⟨next, program⟩ := issues
  obtain ⟨request, log, _⟩ := thread
  cases program
  simpa only [keepsPayable, found, Bool.and_eq_true] using keeps

-- Between complete requests every session that is due has its hash.
theorem all_backed (fresh : Fresh first)
    (run : (machine p).Reaches (fun cfg label => oneAtATime cfg label = true ∧ keepsPayable p cfg label = true)
      first after) (resting : idle after = true) : AllBacked after.world := by
  have served (request : Request) (w : World) (held : AllBacked w) : ((machine p).handler request).Ensures
      (Function.const Request (Sparing p) request) (fun _ => AllBacked) w := KeepsBacked.handler request w held
  refine run.between ?_ served (fun _ _ _ held => held.occurred) (by simp [idle, fresh.threads]) ?_ resting
  · intro cfg index choice thread op reply after keeps found issues executed
    exact ⟨choice, (keepsPayable_step keeps found issues).1, executed⟩
  · constructor
    · simp [fresh.sessions]
    · simp [fresh.sessions]
    · simp [HashesMinted, fresh.cache]

/-- In every run of complete requests in which no hash of a session that is due is deleted
and no overdue session is asked for its instructions, a session that hands out its
instructions can be settled. -/
theorem instructed_session_settleable (fresh : Fresh first)
    (run : (machine p).Reaches (fun cfg label => oneAtATime cfg label = true ∧ keepsPayable p cfg label = true)
      first before) (keeps : keepsPayable p before label = true)
    (instructed : Instructed p before label after content) :
    ∃ row ∈ after.world.sessions, HandsOut p row content ∧ Settleable p after.world row := by
  obtain ⟨stepped, index, choice, thread, rfl, found, instructs, answered⟩ := instructed
  obtain ⟨id, named⟩ := Option.isSome_iff_exists.mp instructs
  have whole := run.tail (.step index choice) ⟨rfl, keeps⟩ stepped
  have one := (run.alone (by simp [AtMostOneBusy, fresh.threads])).2
  have held := all_backed fresh whole (idle_of_answered one stepped found (by rw [answered]; rfl))
  have reading := (whole.disciplined instructions_read (by simp [Disciplined, fresh.threads])).ends
    (List.mem_of_getElem? found) answered
  obtain ⟨row, logged, awaits, hands⟩ := reading id content named rfl
  rcases thread_after stepped found with old | ⟨_, arrival, _⟩ |
    ⟨_, stepping, op, rest, reply, moved, at_index, program, executed, rfl⟩
  · exact absurd rfl (old_elsewhere stepped old found)
  · cases arrival
  · cases moved
    -- The answer was given at the step that read the session.
    obtain ⟨entry, _⟩ := List.cons.inj logged
    cases entry
    have performed : performs p (.sql (.selectSession id)) before.world (.ok (some row)) after.world :=
      ⟨choice, trivial, executed⟩
    obtain ⟨canonical, cast, first_row⟩ := read_session performed
    have same := performs_looks rfl performed
    rw [← same] at first_row
    have is_id : row.id = canonical := by simpa using List.find?_some first_row
    subst is_id
    have member := List.mem_of_find?_eq_some first_row
    have in_time := (keepsPayable_step keeps at_index ⟨rest, program⟩).2
    simp only [timely, Bool.or_eq_true, List.all_eq_true, ← same] at in_time
    have due : row.due after.world.now = true := by
      rcases in_time with nobody | all
      · change stepping.request.instructed = some id at named
        simp [named] at nobody
      · simpa [cast, awaits] using all row member
    obtain ⟨cached, backed, _⟩ := held.backed row member due
    exact ⟨row, member, hands, ⟨cached, backed⟩, submission_taken first_row awaits backed⟩

end Runs
end Instructing

section Meetup
open Mainnet

def instructions : Request := .v1WalletInstructions (onSession "/wallet-instructions" none)
def reads (index : Nat) : ServiceLabel := .step index ⟨none, ""⟩

/-- The step hands out instructions, and the world is as `checks` says. -/
def instructs (checks : World → Bool) (index : Nat) (before : Service) : Bool :=
  ((machine platform).next before (reads index)).any fun after =>
    checks after.world && after.threads[index]?.any fun
      | ⟨request, _, .ret (.responded 200 _)⟩ => request.instructed.isSome
      | _ => false

theorem instructed_of {checks : World → Bool} {index : Nat} {before : Service}
    (instructing : instructs checks index before = true) :
    ∃ after content, checks after.world = true ∧ Instructed platform before (reads index) after content := by
  obtain ⟨after, stepped, done⟩ := (Option.any_eq_true _ _).mp instructing
  rw [Bool.and_eq_true] at done
  obtain ⟨thread, found, answered⟩ := (Option.any_eq_true _ _).mp done.2
  split at answered
  · exact ⟨after, _, done.1, stepped, index, _, _, rfl, found, answered, rfl⟩
  · cases answered

/-- A session is created and asked for its instructions. -/
theorem instructed_session_settleable_meetup : ∃ (after : Service) (row : SessionRow),
    row ∈ after.world.sessions ∧ Settleable platform after.world row := by
  obtain ⟨before, run, done⟩ := run_meets (machine platform)
    (fun cfg label => oneAtATime cfg label && keepsPayable platform cfg label)
    (.arrive (create "") :: steps 0 4 uuid3 ++ steps 0 5 uuid1 ++ [.arrive instructions]) (opening [])
    (fun before => keepsPayable platform before (reads 1) && instructs (fun _ => true) 1 before) (by decide +kernel)
  simp only [Bool.and_eq_true] at run done
  obtain ⟨after, content, _, instructed⟩ := instructed_of done.2
  obtain ⟨row, member, _, settleable⟩ := instructed_session_settleable (opening_fresh _) run done.1 instructed
  exact ⟨after, row, member, settleable⟩

/-- A run of complete requests that ends with instructions for a session that cannot be
settled: whether one is still in time is `due`. -/
def Strands (index : Nat) (due : Bool) : Prop :=
  ∃ before after content,
    (machine platform).Reaches (fun cfg label => oneAtATime cfg label = true) (opening []) before ∧
    Instructed platform before (reads index) after content ∧
    (after.world.sessions.any fun row => row.due after.world.now) = due ∧
    ∀ row, HandsOut platform row content → ¬ Settleable platform after.world row

theorem strands_of (labels : List ServiceLabel) {index : Nat} {due : Bool}
    (computed : ((machine platform).run oneAtATime labels (opening [])).any (instructs (fun w =>
      w.cache.isEmpty && (w.sessions.any fun row => row.due w.now) == due) index) = true) : Strands index due := by
  obtain ⟨before, run, done⟩ := run_meets (machine platform) oneAtATime labels (opening []) _ computed
  obtain ⟨after, content, checked, instructed⟩ := instructed_of done
  simp only [Bool.and_eq_true, List.isEmpty_iff, beq_iff_eq] at checked
  refine ⟨before, after, content, run, instructed, checked.2, fun row _ settleable => ?_⟩
  obtain ⟨cached, backed⟩ := settleable.live
  have found := backed.found
  rw [checked.1] at found
  cases found

/-- Twenty minutes after its creation, and right after a legacy cancel, a session hands out
its instructions and has no hash. -/
theorem instructed_session_unsettleable : Strands 1 false ∧ Strands 2 true := by
  constructor
  · exact strands_of (.arrive (create "") :: steps 0 4 uuid3 ++ steps 0 5 uuid1 ++
      [.event (.tick 1200000000000), .arrive instructions]) (by decide +kernel)
  · exact strands_of (.arrive (create "") :: steps 0 4 uuid3 ++ steps 0 5 uuid1 ++
      .arrive (cancelInvoice uuid1) :: steps 1 3 "" ++ [.arrive instructions]) (by decide +kernel)

end Meetup
end Payknot
