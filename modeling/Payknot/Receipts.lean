import Payknot.Provenance
import Payknot.Mainnet

/-! Paid implies verified. Every paid checkout is traced back to the request that drew
its reference, the event that request read, and a transaction on the chain that pays
that event's merchant the amount the row says. -/
namespace Payknot
open GoText Interleaving Machine

variable {p : Platform} {init cfg after : Service} {label : ServiceLabel}

/-- The chain reports, without an error, the transaction a signature text names. -/
def OnChain (p : Platform) (w : World) (signature : String) (tx : Transaction) : Prop :=
  ∃ sig, p.signatureFromBase58 signature = .ok sig ∧ ∃ landed ∈ w.chain, landed.signature = sig ∧
    (∃ txMeta, landed.result.txMeta = some txMeta ∧ txMeta.err = none) ∧
    landed.result.transaction = .ok tx

/-- The wallet of the event as a verifier was given it: legacy endpoints trim it. -/
def WalletOf (event : EventRow) (merchant : String) : Prop :=
  merchant = event.columns.merchantWallet ∨ merchant = trimSpace event.columns.merchantWallet

/-- The evidence behind one paid row. `thread` is the request that drew the row's
reference, `event` the event row as it read it. -/
structure Receipt (p : Platform) (init cfg : Service) (row : CheckoutRow) (thread : ServiceThread)
    (event : EventRow) (merchant signature : String) (tx : Transaction) : Prop where
  drew : thread.log.Saw .newUUID row.reference
  read : EventRead thread.log event
  had : HadEvent p init cfg event
  eventId : row.eventId = event.id
  amount : row.amount = event.columns.amountUSDC
  wallet : WalletOf event merchant
  signed : row.signature = some signature
  onChain : OnChain p cfg.world signature tx
  pays : PaysInto p tx merchant row.amount
  memo : (thread.request.opensSession = true ∧ CarriesMemo p tx row.reference) ∨
    thread.request.isManualVerify = true

def Receipted (p : Platform) (init cfg : Service) (row : CheckoutRow) : Prop :=
  ∃ thread ∈ cfg.threads, ∃ event merchant signature tx,
    Receipt p init cfg row thread event merchant signature tx

theorem redisKey_injective {reference other : String}
    (same : redisKey reference = redisKey other) : reference = other := by
  have texts := congrArg String.toList same
  simp only [redisKey, String.toList_append, List.append_cancel_left_eq] at texts
  exact String.toList_inj.mp texts

section Evidence
variable (held : Provenance p init cfg)
include held

-- A reference belongs to one request and one version of its event.
theorem setUp_unique {reference : String} {event other : EventRow}
    (up : SetUp cfg reference event) (also : SetUp cfg reference other) : event = other := by
  obtain ⟨thread, member, opened⟩ := up
  obtain ⟨second, member', opened'⟩ := also
  obtain ⟨i, at_i⟩ := List.mem_iff_getElem?.mp member
  obtain ⟨j, at_j⟩ := List.mem_iff_getElem?.mp member'
  have same := held.sole i j thread second reference at_i at_j opened.drew opened'.drew
  subst same
  rw [at_i, Option.some.injEq] at at_j
  subst at_j
  exact held.single thread member event other opened.read opened'.read

theorem fetched_onChain {thread : ServiceThread} (member : thread ∈ cfg.threads) {log : History}
    (within : log <:+ thread.log) {signature : String} {tx : Transaction}
    (fetched : Fetched p log signature tx) : OnChain p cfg.world signature tx := by
  obtain ⟨client, sig, result, parsed, saw, decoded⟩ := fetched
  obtain ⟨landed, present, same, reported⟩ := held.truthful thread member _ (within.subset saw)
  obtain ⟨ok, body⟩ := decodeResult_ok result tx decoded
  refine ⟨sig, parsed, landed, present, same, ?_, ?_⟩
  · rw [reported]
    exact ok
  · rw [reported]
    exact body

/-- What a finaliser is about to write agrees with the session's event and is paid
for by a transaction that carries the reference. -/
theorem finalises_evidence {thread : ServiceThread} (member : thread ∈ cfg.threads) {log : History}
    (within : log <:+ thread.log) {checkout : PaidCheckout}
    (finalises : Finalises p thread.request log checkout) :
    ∃ event merchant tx, SetUp cfg checkout.reference event ∧ checkout.eventId = event.id ∧
      checkout.amount = event.columns.amountUSDC ∧ WalletOf event merchant ∧
      OnChain p cfg.world checkout.signature tx ∧ PaysInto p tx merchant checkout.amount ∧
      CarriesMemo p tx checkout.reference := by
  obtain ⟨⟨stored, agreed, parsed, _⟩, _⟩ := finalises
  obtain ⟨reference, event, walletAddress, paymentMethod, data, keyed, up, rfl⟩ :=
    held.truthful thread member _ (within.subset agreed.read)
  have same := redisKey_injective keyed
  subst same
  have eventId : checkout.eventId = event.id := by
    simpa [invoiceHash, eq_comm] using parsed
  rcases agreed.terms with ⟨_, amount, tx, sender, fetched, accepted⟩ |
    ⟨_, id, session, read, same, amount, tx, sender, fetched, accepted⟩
  · have terms : checkout.amount = event.columns.amountUSDC := by
      simpa [invoiceHash, eq_comm] using amount
    obtain ⟨pays, memo⟩ := verifyPayment_sound p _ _ _ tx sender accepted
    exact ⟨event, _, tx, up, eventId, terms, .inr rfl, fetched_onChain held member within fetched,
      pays, memo⟩
  · obtain ⟨other, up', terms⟩ := held.truthful thread member _ (within.subset read)
    rw [same] at up'
    have agree := setUp_unique held up up'
    subst agree
    obtain ⟨pays, memo⟩ := verifyPayment_sound p _ _ _ tx sender accepted
    exact ⟨event, _, tx, up, eventId, amount.symm.trans terms.amount, .inl terms.merchant,
      fetched_onChain held member within fetched, pays, memo⟩

theorem hadEvent {thread : ServiceThread} (member : thread ∈ cfg.threads) {event : EventRow}
    (read : EventRead thread.log event) : HadEvent p init cfg event := by
  obtain ⟨entry, among, reads⟩ := read
  have told := held.truthful thread member entry among
  unfold readEvent at reads
  split at reads
  · cases reads
    exact told
  · cases reads
    exact told
  · cases reads

end Evidence

theorem OnChain.mono {w later : World} {signature : String} {tx : Transaction}
    (onChain : OnChain p w signature tx) (grown : w.chain ⊆ later.chain) :
    OnChain p later signature tx := by
  obtain ⟨sig, parsed, landed, present, rest⟩ := onChain
  exact ⟨sig, parsed, landed, grown present, rest⟩

theorem Receipted.next (stepped : (machine p).next cfg label = some after) {row : CheckoutRow}
    (receipted : Receipted p init cfg row) : Receipted p init after row := by
  obtain ⟨thread, member, event, merchant, signature, tx, receipt⟩ := receipted
  obtain ⟨current, present, same, grown⟩ := next_thread stepped member
  refine ⟨current, present, event, merchant, signature, tx, receipt.drew.mono grown,
    receipt.read.mono grown, receipt.had.next stepped, receipt.eventId, receipt.amount,
    receipt.wallet, receipt.signed, receipt.onChain.mono (next_grows stepped).1, receipt.pays, ?_⟩
  rw [same]
  exact receipt.memo

-- A session's row, new or overwritten, has its evidence from the finaliser.
theorem receipted_of_finalises (held : Provenance p init cfg) {thread : ServiceThread}
    (member : thread ∈ cfg.threads) {log : History} (within : log <:+ thread.log)
    {checkout : PaidCheckout} (finalises : Finalises p thread.request log checkout)
    {row : CheckoutRow} (reference : row.reference = checkout.reference)
    (signature : row.signature = some checkout.signature)
    (same_event : ∀ event, SetUp cfg checkout.reference event → checkout.eventId = event.id →
      checkout.amount = event.columns.amountUSDC →
      row.eventId = event.id ∧ row.amount = event.columns.amountUSDC) :
    Receipted p init cfg row := by
  obtain ⟨event, merchant, tx, up, eventId, amount, wallet, onChain, pays, memo⟩ :=
    finalises_evidence held member within finalises
  obtain ⟨row_event, row_amount⟩ := same_event event up eventId amount
  obtain ⟨opener, present, opened⟩ := up
  have pays_row : PaysInto p tx merchant row.amount := by
    rw [row_amount, ← amount]
    exact pays
  refine ⟨opener, present, event, merchant, checkout.signature, tx, ?_, opened.read,
    hadEvent held present opened.read, row_event, row_amount, wallet, signature, onChain, pays_row,
    .inl ⟨opened.opens, ?_⟩⟩
  · rw [reference]
    exact opened.drew
  · rw [reference]
    exact memo

-- The terms of a receipted row are those its reference was set up with.
theorem Receipted.terms (held : Provenance p init cfg) {row : CheckoutRow}
    (receipted : Receipted p init cfg row) {event : EventRow} (up : SetUp cfg row.reference event) :
    row.eventId = event.id ∧ row.amount = event.columns.amountUSDC := by
  obtain ⟨thread, member, other, merchant, signature, tx, receipt⟩ := receipted
  obtain ⟨opener, present, opened⟩ := up
  obtain ⟨i, at_i⟩ := List.mem_iff_getElem?.mp member
  obtain ⟨j, at_j⟩ := List.mem_iff_getElem?.mp present
  have same := held.sole i j thread opener row.reference at_i at_j receipt.drew opened.drew
  subst same
  rw [at_i, Option.some.injEq] at at_j
  subst at_j
  have agree := held.single thread member other event receipt.read opened.read
  subst agree
  exact ⟨receipt.eventId, receipt.amount⟩

theorem receipted_next (held : Provenance p init cfg)
    (receipted : ∀ row ∈ cfg.world.checkouts, Receipted p init cfg row)
    (stepped : (machine p).next cfg label = some after) :
    ∀ row ∈ after.world.checkouts, Receipted p init after row := by
  intro row found
  have kept {old : CheckoutRow} (member : old ∈ cfg.world.checkouts) : Receipted p init after old :=
    (receipted old member).next stepped
  rcases next_cases stepped with ⟨request, rfl, rfl⟩ | ⟨event, world, rfl, occurred, rfl⟩ |
    ⟨index, choice, thread, op, rest, reply, world, rfl, at_index, program, executed, same⟩
  · exact kept found
  · have unchanged := occur_frame .checkouts occurred (by decide)
    rw [unchanged] at found
    exact kept found
  · rw [same] at found
    have present := List.mem_of_getElem? at_index
    have suspended : thread.Issues op := ⟨rest, program⟩
    rcases exec_checkouts executed with unchanged | ⟨checkout, data, rfl, _, _, written⟩ |
      ⟨checkout, data, issued, _, _, added⟩ | ⟨reference, rfl, removed⟩ |
      ⟨id, signature, sender, rfl, marked⟩ | ⟨id, rfl, marked⟩ | ⟨id, ownerEmail, rfl, removed⟩
    · rw [unchanged] at found
      exact kept found
    · rw [written] at found
      obtain ⟨old, among, ⟨chosen, rfl⟩ | ⟨_, rfl⟩⟩ := mem_updateWhere found
      · have reference : old.reference = checkout.reference := by simpa using chosen
        obtain ⟨earlier, logged, finalises⟩ := held.careful.issues present suspended
        have within : earlier <:+ thread.log := by
          rw [logged]
          exact List.suffix_cons _ _
        refine Receipted.next stepped
          (receipted_of_finalises held present within finalises reference rfl fun event up _ _ => ?_)
        rw [← reference] at up
        exact (receipted old among).terms held up
      · exact kept among
    · rw [added] at found
      rcases List.mem_append.mp found with older | newest
      · exact kept older
      · rw [List.mem_singleton] at newest
        subst newest
        rcases issued with rfl | rfl
        · obtain ⟨earlier, logged, finalises⟩ := held.careful.issues present suspended
          have within : earlier <:+ thread.log := by
            rw [logged]
            exact List.suffix_cons _ _
          exact Receipted.next stepped (receipted_of_finalises held present within finalises rfl rfl
            fun event _ eventId amount => ⟨eventId, amount⟩)
        · obtain ⟨manual, event, read, drew, eventId, amount, tx, sender, fetched, accepted⟩ :=
            held.careful.issues present suspended
          have pays := verifyDirect_sound p _ _ _ tx accepted
          have receipt : Receipt p init cfg (checkout.row cfg.world.nextCheckoutId cfg.world.now data)
              thread event event.columns.merchantWallet checkout.signature tx :=
            ⟨drew, read, hadEvent held present read, eventId, amount, .inl rfl, rfl,
              fetched_onChain held present (List.suffix_refl _) fetched, pays, .inr manual⟩
          exact Receipted.next stepped ⟨thread, present, event, _, _, tx, receipt⟩
    · rw [removed] at found
      exact kept (List.mem_filter.mp found).1
    · obtain ⟨_, rows, listed, read, among, _⟩ := held.careful.issues present suspended
      exact absurd among (held.nothing_recoverable present read)
    · obtain ⟨_, rows, listed, read, among, _⟩ := held.careful.issues present suspended
      exact absurd among (held.nothing_recoverable present read)
    · rw [removed] at found
      exact kept (List.mem_filter.mp found).1

theorem receipted_reached (fresh : Fresh init) (run : (machine p).Reaches anyStep init cfg) :
    Provenance p init cfg ∧ ∀ row ∈ cfg.world.checkouts, Receipted p init cfg row :=
  run.invariant (fun cfg => Provenance p init cfg ∧
      ∀ row ∈ cfg.world.checkouts, Receipted p init cfg row)
    ⟨fresh.provenance, by simp [fresh.checkouts]⟩
    fun _ _ _ both _ stepped => ⟨both.1.next stepped, receipted_next both.1 both.2 stepped⟩

/-- A version of an event that a thread has read was in the table, in a state whose step
was allowed. -/
theorem read_during {allowed : Service → ServiceLabel → Prop} (run : (machine p).Reaches allowed init cfg)
    (start : init.threads = []) {thread : ServiceThread} (member : thread ∈ cfg.threads) {event : EventRow}
    (read : EventRead thread.log event) : ∃ middle label, allowed middle label ∧ event ∈ middle.world.events := by
  obtain ⟨entry, among, reads⟩ := read
  induction run generalizing thread with
  | refl =>
      rw [start] at member
      cases member
  | @tail middle after label before meets stepped ih =>
      obtain ⟨index, found⟩ := List.mem_iff_getElem?.mp member
      have saw : thread.log.Saw entry.op entry.reply := among
      rcases saw_after stepped found saw with ⟨old, at_old, _, earlier⟩ | ⟨choice, _, _, _, _, _, executed, _⟩
      · exact ih (List.mem_of_getElem? at_old) earlier
      · refine ⟨middle, label, meets, ?_⟩
        change exec p choice entry.op middle.world = some (entry.reply, after.world) at executed
        unfold readEvent at reads
        split at reads
        all_goals cases reads
        all_goals
          rcases exec_sql executed with ⟨_, failed, _⟩ | ⟨_, same, ran⟩
          · cases failed
          · cases same
            exact List.mem_of_find?_eq_some (Prod.mk.inj (Except.ok.inj ran)).1

/-- Whatever the interleaving and whatever fails, a paid row is paid for on the chain:
to a wallet its event had when the payment was set up, in the row's amount, by
someone else, and under the row's reference unless the row is a manual one. -/
theorem paid_implies_verified (fresh : Fresh init) (run : (machine p).Reaches anyStep init cfg)
    (row : CheckoutRow) (member : row ∈ cfg.world.checkouts) (_paid : row.status = .paid) :
    ∃ thread ∈ cfg.threads, ∃ event merchant signature tx,
      Receipt p init cfg row thread event merchant signature tx :=
  (receipted_reached fresh run).2 row member

/-- A manually verified deposit has its receipt. -/
theorem paid_implies_verified_meetup :
    ∃ cfg, ∃ row ∈ cfg.world.checkouts, row.status = .paid ∧
      ∃ thread ∈ cfg.threads, ∃ event merchant signature tx,
        Receipt Mainnet.platform (Mainnet.opening [Mainnet.landed Mainnet.signature1 []]) cfg row
          thread event merchant signature tx := by
  obtain ⟨cfg, run, row, member, paid⟩ := Mainnet.manual_deposit
  exact ⟨cfg, row, member, paid,
    paid_implies_verified (Mainnet.opening_fresh _) run.any row member paid⟩

end Payknot
