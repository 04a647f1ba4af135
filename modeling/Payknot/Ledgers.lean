import Payknot.LedgerWrites
import Payknot.Mainnet

/-! The invoice ledger and the checkout ledger. A finaliser writes them in two
statements, and a confirmation that fails writes the invoice alone, without the guard
`status <> 'paid'` the sweep has for checkouts. -/
namespace Payknot
open GoText Interleaving Machine

variable {p : Platform} {init cfg after : Service} {label : ServiceLabel}

/-- A reference is paid in both ledgers or in neither, under one signature. -/
structure Agree (w : World) (reference : String) : Prop where
  paid : (∃ row ∈ w.checkouts, row.reference = reference ∧ row.status = .paid) ↔
    ∃ invoice ∈ w.invoices, invoice.reference = reference ∧ invoice.status = .paid
  signature : ∀ row ∈ w.checkouts, row.reference = reference → row.status = .paid →
    ∀ invoice ∈ w.invoices, invoice.reference = reference → invoice.status = .paid →
      row.signature = invoice.signature

def Request.isLegacyCheckout : Request → Bool
  | .cancelInvoice _ => true
  | request => request.isLegacyFinaliser

theorem not_manual_of_legacy {request : Request} (offered : request.isLegacyCheckout = true) :
    request.isManualVerify = false := by
  cases request <;> first | rfl | cases offered

def Finalising (thread : ServiceThread) (reference : String) : Prop :=
  ∃ checkout, thread.Issues (.sql (.upsertPaidCheckout checkout)) ∧ checkout.reference = reference

def InvoiceMarked (w : World) (reference : String) : Prop :=
  ∃ invoice ∈ w.invoices, invoice.reference = reference ∧ invoice.status = .paid

/-- Whoever else has read the reference's invoice from the cache has no ledger write left for it. -/
def NobodyElse (cfg : Service) (index : Nat) (reference : String) : Prop :=
  Others cfg index fun other => HashRead other.log reference → ¬ other.program.May (Writes reference)

/-- Confirm, recheck, detect and cancel without failing statements or commands. Nobody else
who has read a reference's invoice may still write for it when it is marked paid, and once it
is marked its invoice is gone from the cache for who comes to read it. -/
structure InOrder (p : Platform) (cfg : Service) (label : ServiceLabel) : Prop where
  arrivals : offers Request.isLegacyCheckout cfg label = true
  succeeds : stepSucceeds p cfg label = true
  marks : ∀ index thread walletAddress reference signature amount,
    Performs cfg label index thread (.sql (.upsertPaidInvoice walletAddress reference signature amount)) →
    NobodyElse cfg index reference
  reads : ∀ index thread reference, Performs cfg label index thread (.redis (.hGetAll (redisKey reference))) →
    InvoiceMarked cfg.world reference → ∀ cached ∈ cfg.world.cache, cached.key ≠ redisKey reference

section Agreement

/-- The ledgers agree on the reference, and once it is paid nobody may write for it any more. -/
structure Settled (cfg : Service) (reference : String) : Prop where
  agree : Agree cfg.world reference
  nobody : ∀ thread ∈ cfg.threads, ¬ Finalising thread reference
  closed : InvoiceMarked cfg.world reference → ∀ thread ∈ cfg.threads, HashRead thread.log reference →
    ¬ thread.program.May (Writes reference)

/-- One request has marked the invoice, is about to mark the checkout, and is alone with them. -/
def Settling (cfg : Service) (reference : String) : Prop :=
  ∃ index thread checkout, cfg.threads[index]? = some thread ∧
    thread.Issues (.sql (.upsertPaidCheckout checkout)) ∧ checkout.reference = reference ∧
    InvoiceMarked cfg.world reference ∧
    (∀ invoice ∈ cfg.world.invoices, invoice.reference = reference →
      invoice.status = .paid ∧ invoice.signature = some checkout.signature) ∧
    NobodyElse cfg index reference

structure Balanced (p : Platform) (cfg : Service) : Prop where
  warranted : Warranted p cfg
  served : Served Request.isLegacyCheckout cfg
  turning : Turning cfg
  either : ∀ reference, Settled cfg reference ∨ Settling cfg reference

variable {choice : Choice} {op : Op} {w later : World} {reply : Reply op}

theorem Agree.of_same {reference : String} (agree : Agree w reference)
    (checkouts : ∀ row, row.reference = reference → row.status = .paid →
      (row ∈ later.checkouts ↔ row ∈ w.checkouts))
    (invoices : ∀ row, row.reference = reference → row.status = .paid →
      (row ∈ later.invoices ↔ row ∈ w.invoices)) : Agree later reference := by
  constructor
  · constructor
    · rintro ⟨row, member, same, paid⟩
      obtain ⟨invoice, among, same', paid'⟩ :=
        agree.paid.mp ⟨row, (checkouts row same paid).mp member, same, paid⟩
      exact ⟨invoice, (invoices invoice same' paid').mpr among, same', paid'⟩
    · rintro ⟨invoice, among, same, paid⟩
      obtain ⟨row, member, same', paid'⟩ :=
        agree.paid.mpr ⟨invoice, (invoices invoice same paid).mp among, same, paid⟩
      exact ⟨row, (checkouts row same' paid').mpr member, same', paid'⟩
  · intro row member same paid invoice among same' paid'
    exact agree.signature row ((checkouts row same paid).mp member) same paid invoice
      ((invoices invoice same' paid').mp among) same' paid'

-- Only the upsert of a reference touches its paid checkouts.
theorem paid_checkouts_same (warranted : Warranted p cfg)
    (served : Served Request.isLegacyCheckout cfg) {thread : ServiceThread}
    (present : thread ∈ cfg.threads) (suspended : thread.Issues op)
    (executed : exec p choice op cfg.world = some (reply, later)) {reference : String}
    (outside : ¬ Finalising thread reference) (row : CheckoutRow) (same : row.reference = reference)
    (paid : row.status = .paid) : row ∈ later.checkouts ↔ row ∈ cfg.world.checkouts := by
  have issues := warranted.issues present suspended
  have offered := served thread present
  rcases exec_checkouts executed with unchanged | ⟨checkout, data, rfl, _, _, written⟩ |
    ⟨checkout, data, rfl | rfl, _, _, added⟩ | ⟨pending, rfl, removed⟩ |
    ⟨id, signature, sender, rfl, _⟩ | ⟨id, rfl, _⟩ | ⟨id, ownerEmail, rfl, _⟩
  · rw [unchanged]
  · have other : checkout.reference ≠ reference := fun here => outside ⟨checkout, suspended, here⟩
    rw [written]
    constructor
    · intro found
      obtain ⟨old, among, ⟨chosen, rfl⟩ | ⟨_, rfl⟩⟩ := mem_updateWhere found
      · have chosen : old.reference = checkout.reference := by simpa using chosen
        exact absurd (chosen.symm.trans same) other
      · exact among
    · intro member
      rcases updateWhere_mem (·.reference = checkout.reference)
        (·.overwrite checkout cfg.world.now data) member with ⟨chosen, _⟩ | ⟨_, kept⟩
      · have chosen : row.reference = checkout.reference := by simpa using chosen
        exact absurd (chosen.symm.trans same) other
      · exact kept
  · have other : checkout.reference ≠ reference := fun here => outside ⟨checkout, suspended, here⟩
    rw [added, List.mem_append, List.mem_singleton]
    constructor
    · rintro (older | rfl)
      · exact older
      · exact absurd same other
    · exact Or.inl
  · have manual := issues.1
    rw [not_manual_of_legacy offered] at manual
    cases manual
  · rw [removed, List.mem_filter]
    simp [paid]
  · rw [issues.1] at offered
    cases offered
  · rw [issues.1] at offered
    cases offered
  · rw [issues.1] at offered
    cases offered

/-- Who does not write for a reference adds no invoice of it, and takes away no paid one. -/
theorem invoices_of_others (warranted : Warranted p cfg) (served : Served Request.isLegacyCheckout cfg)
    {thread : ServiceThread} (present : thread ∈ cfg.threads) (suspended : thread.Issues op)
    (executed : exec p choice op cfg.world = some (reply, later)) {reference : String}
    (other : ¬ Writes reference op) (row : InvoiceRow) (same : row.reference = reference) :
    (row ∈ later.invoices → row ∈ cfg.world.invoices) ∧
      (row.status = .paid → row ∈ cfg.world.invoices → row ∈ later.invoices) := by
  rcases exec_invoices executed with unchanged | ⟨walletAddress, paid, signature, amount, rfl, written⟩ |
    ⟨walletAddress, failed, signature, amount, text, rfl, written⟩ |
    ⟨walletAddress, manual, signature, amount, rfl, _, _⟩ | ⟨pending, rfl, removed⟩
  · rw [unchanged]
    exact ⟨id, fun _ => id⟩
  · have elsewhere : row.reference ≠ paid := fun here => other (congrArg some (here.symm.trans same))
    rw [written, mem_upsertInvoiceRows elsewhere]
    exact ⟨id, fun _ => id⟩
  · have elsewhere : row.reference ≠ failed := fun here => other (congrArg some (here.symm.trans same))
    rw [written, mem_upsertInvoiceRows elsewhere]
    exact ⟨id, fun _ => id⟩
  · have manual := warranted.issues present suspended
    rw [Issues, not_manual_of_legacy (served thread present)] at manual
    cases manual
  · rw [removed]
    exact ⟨fun found => (List.mem_filter.mp found).1,
      fun paid member => List.mem_filter.mpr ⟨member, by simp [paid]⟩⟩

theorem upsertInvoiceRows_has {new : InvoiceRow} {invoices : List InvoiceRow} :
    ∃ row ∈ upsertInvoiceRows new invoices, row.reference = new.reference := by
  unfold upsertInvoiceRows
  split
  · next taken =>
    obtain ⟨old, among, same⟩ := List.any_eq_true.mp taken
    have same : old.reference = new.reference := by simpa using same
    rcases updateWhere_mem (·.reference = new.reference) (·.overwrite new) among with ⟨_, kept⟩ | ⟨other, _⟩
    · exact ⟨_, kept, same⟩
    · simp [same] at other
  · exact ⟨new, List.mem_append_right _ List.mem_cons_self, rfl⟩

-- The last finaliser of a reference leaves it in order.
theorem agree_of_finalised {checkout : PaidCheckout} {value : Unit}
    (executed : exec p choice (.sql (.upsertPaidCheckout checkout)) w = some (.ok value, later))
    (stands : ∃ invoice ∈ w.invoices, invoice.reference = checkout.reference ∧
      ∀ invoice ∈ w.invoices, invoice.reference = checkout.reference →
        invoice.status = .paid ∧ invoice.signature = some checkout.signature) :
    Agree later checkout.reference := by
  obtain ⟨⟨row, member, same⟩, written⟩ := exec_upsertPaidCheckout executed
  obtain ⟨invoice, among, same', all⟩ := stands
  have unchanged : later.invoices = w.invoices :=
    exec_frame .invoices executed (by simp [Op.writes, Sql.writes])
  constructor
  · rw [unchanged]
    exact ⟨fun _ => ⟨invoice, among, same', (all invoice among same').1⟩,
      fun _ => ⟨row, member, same, (written row member same).1⟩⟩
  · rw [unchanged]
    intro row member same _ invoice among same' _
    rw [(written row member same).2, (all invoice among same').2]

theorem exec_upsertPaidInvoice {walletAddress reference signature : String} {amount : Int64} {value : Unit}
    (executed : exec p choice (.sql (.upsertPaidInvoice walletAddress reference signature amount)) w =
      some (.ok value, later)) :
    (∃ invoice ∈ later.invoices, invoice.reference = reference) ∧
      ∀ invoice ∈ later.invoices, invoice.reference = reference →
        invoice.status = .paid ∧ invoice.signature = some signature := by
  rcases exec_sql executed with ⟨_, wrong, _⟩ | ⟨_, _, ran⟩
  · cases wrong
  · cases ran
    exact ⟨upsertInvoiceRows_has, fun invoice among same => upsertInvoiceRows_written among same⟩

-- Whoever stands between the two upserts has just performed the first.
theorem Finalising.wrote {thread : ServiceThread} {reference : String} (finalising : Finalising thread reference)
    (warranted : Warranted p cfg) (member : thread ∈ cfg.threads) :
    ∃ walletAddress signature amount earlier, thread.log =
      ⟨.sql (.upsertPaidInvoice walletAddress reference signature amount), .ok ()⟩ :: earlier := by
  obtain ⟨checkout, suspended, rfl⟩ := finalising
  obtain ⟨earlier, logged, _⟩ := warranted.issues member suspended
  exact ⟨_, _, _, earlier, logged⟩

theorem Finalising.may {thread : ServiceThread} {reference : String} (finalising : Finalising thread reference) :
    thread.program.May (Writes reference) := by
  obtain ⟨checkout, ⟨rest, program⟩, rfl⟩ := finalising
  rw [program]
  exact .inl rfl

section Step
variable (balanced : Balanced p cfg) (inOrder : InOrder p cfg label)
variable (stepped : (machine p).next cfg label = some after) {reference : String}
include balanced stepped

-- A step that writes neither ledger for the reference leaves its paid rows alone.
theorem paid_rows_kept
    (silent : ∀ index thread op, Performs cfg label index thread op → ¬ Writes reference op) :
    (∀ row, row.reference = reference → row.status = .paid →
      (row ∈ after.world.checkouts ↔ row ∈ cfg.world.checkouts)) ∧
    ∀ row, row.reference = reference → (row ∈ after.world.invoices → row ∈ cfg.world.invoices) ∧
      (row.status = .paid → row ∈ cfg.world.invoices → row ∈ after.world.invoices) := by
  rcases next_cases stepped with ⟨request, rfl, rfl⟩ | ⟨event, world, rfl, occurred, rfl⟩ |
    ⟨index, choice, thread, op, rest, reply, world, rfl, at_index, program, executed, rfl⟩
  · exact ⟨fun _ _ _ => Iff.rfl, fun _ _ => ⟨id, fun _ => id⟩⟩
  · have checkouts := occur_frame .checkouts occurred (by decide)
    have invoices := occur_frame .invoices occurred (by decide)
    simp only [Part.Same] at checkouts invoices
    rw [checkouts, invoices]
    exact ⟨fun _ _ _ => Iff.rfl, fun _ _ => ⟨id, fun _ => id⟩⟩
  · have present := List.mem_of_getElem? at_index
    have suspended : thread.Issues op := ⟨rest, program⟩
    have other := silent index thread op ⟨⟨choice, rfl⟩, at_index, suspended⟩
    have outside : ¬ Finalising thread reference := by
      rintro ⟨checkout, ⟨rest', program'⟩, rfl⟩
      rw [program] at program'
      cases program'
      exact other rfl
    exact ⟨paid_checkouts_same balanced.warranted balanced.served present suspended executed outside,
      invoices_of_others balanced.warranted balanced.served present suspended executed other⟩

include inOrder

theorem settled_kept (settled : Settled cfg reference)
    (silent : ∀ index thread op, Performs cfg label index thread op → ¬ Writes reference op) :
    Settled after reference := by
  obtain ⟨checkouts, invoices⟩ := paid_rows_kept balanced stepped silent
  have marked : InvoiceMarked after.world reference → InvoiceMarked cfg.world reference := by
    rintro ⟨invoice, among, same, paid⟩
    exact ⟨invoice, (invoices invoice same).1 among, same, paid⟩
  refine ⟨?_, ?_, ?_⟩
  · exact settled.agree.of_same checkouts fun row same paid => ⟨(invoices row same).1, (invoices row same).2 paid⟩
  · intro current member finalising
    have warranted := warranted_next balanced.warranted stepped
    obtain ⟨walletAddress, signature, amount, earlier, logged⟩ := finalising.wrote warranted member
    obtain ⟨index, found⟩ := List.mem_iff_getElem?.mp member
    rcases thread_after stepped found with old | ⟨request, _, rfl, _⟩ |
      ⟨choice, thread, moved, rest, answered, rfl, at_index, program, executed, rfl⟩
    · exact settled.nobody current (List.mem_of_getElem? old) finalising
    · cases logged
    · cases logged
      exact silent index thread _ ⟨⟨choice, rfl⟩, at_index, rest, program⟩ rfl
  · intro paid current member read may
    obtain ⟨index, found⟩ := List.mem_iff_getElem?.mp member
    obtain ⟨thread, at_index, read, may⟩ := may_before stepped
      (fun index thread performs => inOrder.reads index thread reference performs (marked paid)) found read may
    exact settled.closed (marked paid) thread (List.mem_of_getElem? at_index) read may

-- Nobody else can disturb the one between the two upserts.
theorem settling_kept {index : Nat} {thread : ServiceThread} {checkout : PaidCheckout}
    (at_index : cfg.threads[index]? = some thread)
    (suspended : thread.Issues (.sql (.upsertPaidCheckout checkout)))
    (marked : InvoiceMarked cfg.world checkout.reference)
    (stands : ∀ invoice ∈ cfg.world.invoices, invoice.reference = checkout.reference →
      invoice.status = .paid ∧ invoice.signature = some checkout.signature)
    (nobody : NobodyElse cfg index checkout.reference)
    (elsewhere : ∀ choice, label ≠ .step index choice) : Settling after checkout.reference := by
  have silent : ∀ moved other op, Performs cfg label moved other op → ¬ Writes checkout.reference op := by
    rintro moved other op ⟨⟨choice, rfl⟩, at_moved, issues⟩ writes
    have apart : moved ≠ index := by
      rintro rfl
      exact elsewhere choice rfl
    have read := reads_first balanced.warranted balanced.turning (List.mem_of_getElem? at_moved) issues writes
    obtain ⟨rest, program⟩ := issues
    refine nobody moved other apart at_moved read ?_
    rw [program]
    exact .inl writes
  obtain ⟨_, invoices⟩ := paid_rows_kept balanced stepped silent
  have still : after.threads[index]? = some thread := by
    rcases next_cases stepped with ⟨request, rfl, rfl⟩ | ⟨event, world, rfl, _, rfl⟩ |
      ⟨moved, choice, other, op, rest, reply, world, rfl, at_moved, _, _, rfl⟩
    · rw [List.getElem?_append_left (List.getElem?_eq_some_iff.mp at_index).1]
      exact at_index
    · exact at_index
    · rw [List.getElem?_set_ne]
      · exact at_index
      · rintro rfl
        exact elsewhere choice rfl
  refine ⟨index, thread, checkout, still, suspended, rfl, ?_, ?_, ?_⟩
  · obtain ⟨invoice, among, same, paid⟩ := marked
    exact ⟨invoice, (invoices invoice same).2 paid among, same, paid⟩
  · exact fun invoice among same => stands invoice ((invoices invoice same).1 among) same
  · intro j current other found read may
    obtain ⟨earlier, at_j, read, may⟩ := may_before stepped
      (fun index thread performs => inOrder.reads index thread _ performs marked) found read may
    exact nobody j earlier other at_j read may

end Step

-- A confirmation that fails before the invoice is paid leaves both ledgers without a payment.
theorem settled_refused {reference walletAddress signature : String} {amount : Int64} {errReason : Option String}
    {threads : List ServiceThread} (unmarked : ¬ InvoiceMarked w reference) (agree : Agree w reference)
    (nobody : ∀ thread ∈ threads, ¬ Finalising thread reference)
    {reply : Reply (.sql (.upsertErrorInvoice walletAddress reference signature amount errReason))}
    (executed : exec p choice (.sql (.upsertErrorInvoice walletAddress reference signature amount errReason)) w =
      some (reply, later)) : Settled ⟨later, threads⟩ reference := by
  have unpaid : ¬ ∃ row ∈ w.checkouts, row.reference = reference ∧ row.status = .paid :=
    fun paid => unmarked (agree.paid.mp paid)
  have checkouts : later.checkouts = w.checkouts :=
    exec_frame .checkouts executed (by simp [Op.writes, Sql.writes])
  have unmarked_later : ¬ InvoiceMarked later reference := by
    rintro ⟨invoice, among, same, paid⟩
    rcases exec_invoices executed with unchanged | ⟨_, _, _, _, wrong, _⟩ |
      ⟨_, _, _, _, text, same_op, written⟩ | ⟨_, _, _, _, wrong, _⟩ | ⟨_, wrong, _⟩
    · rw [unchanged] at among
      exact unmarked ⟨invoice, among, same, paid⟩
    · cases wrong
    · cases same_op
      rw [written] at among
      rw [(upsertInvoiceRows_written among same).1] at paid
      cases paid
    · cases wrong
    · cases wrong
  have agree_later : Agree later reference := by
    constructor
    · rw [checkouts]
      exact ⟨fun paid => absurd paid unpaid, fun marked => absurd marked unmarked_later⟩
    · intro row member same paid
      rw [checkouts] at member
      exact absurd ⟨row, member, same, paid⟩ unpaid
  exact ⟨agree_later, nobody, fun marked => absurd marked unmarked_later⟩

section Writing
variable {index : Nat} {thread : ServiceThread} (balanced : Balanced p cfg)
variable (inOrder : InOrder p cfg (.step index choice)) (at_index : cfg.threads[index]? = some thread)
include balanced inOrder at_index

-- A finaliser that marks an invoice goes on to its checkout, alone with it.
theorem settling_marked {walletAddress reference signature : String} {amount : Int64}
    {rest : Reply (.sql (.upsertPaidInvoice walletAddress reference signature amount)) → Handler Answer}
    {reply : Reply (.sql (.upsertPaidInvoice walletAddress reference signature amount))}
    (program : thread.program = .call (.sql (.upsertPaidInvoice walletAddress reference signature amount)) rest)
    (executed : exec p choice (.sql (.upsertPaidInvoice walletAddress reference signature amount)) cfg.world =
      some (reply, later))
    (stepped : (machine p).next cfg (.step index choice) =
      some ⟨later, cfg.threads.set index (thread.resumed _ reply rest)⟩) :
    Settling ⟨later, cfg.threads.set index (thread.resumed _ reply rest)⟩ reference := by
  have performs : Performs cfg (.step index choice : ServiceLabel) index thread
      (.sql (.upsertPaidInvoice walletAddress reference signature amount)) :=
    ⟨⟨choice, rfl⟩, at_index, rest, program⟩
  have moved : (cfg.threads.set index (thread.resumed _ reply rest))[index]? =
      some (thread.resumed _ reply rest) :=
    List.getElem?_set_self (List.getElem?_eq_some_iff.mp at_index).1
  cases reply with
  | error fault => cases stepSucceeds_reply inOrder.succeeds performs executed
  | ok value =>
      obtain ⟨⟨invoice, among, same⟩, written⟩ := exec_upsertPaidInvoice executed
      have warranted := warranted_next balanced.warranted stepped
      have turning := turning_next balanced.turning stepped
      obtain ⟨checkout, next, same'⟩ := marks_checkout turning (List.mem_of_getElem? moved) rfl
      obtain ⟨earlier, logged, _⟩ := warranted.issues (List.mem_of_getElem? moved) next
      have signed : signature = checkout.signature := by
        simp only [Thread.resumed] at logged
        cases logged
        rfl
      refine ⟨index, _, checkout, moved, next, same', ⟨invoice, among, same, (written invoice among same).1⟩, ?_, ?_⟩
      · rw [← signed]
        exact written
      · intro j other apart at_j
        refine inOrder.marks index thread _ _ _ _ performs j other apart ?_
        rwa [List.getElem?_set_ne (Ne.symm apart)] at at_j

/-- Who writes for a settled reference finds its invoice not paid: it marks it, or leaves an error. -/
theorem settled_written {op : Op} {reply : Reply op} {rest : Reply op → Handler Answer}
    (program : thread.program = .call op rest)
    (executed : exec p choice op cfg.world = some (reply, later)) {reference : String}
    (settled : Settled cfg reference) (writes : Writes reference op)
    (stepped : (machine p).next cfg (.step index choice) =
      some ⟨later, cfg.threads.set index (thread.resumed op reply rest)⟩) :
    Settled ⟨later, cfg.threads.set index (thread.resumed op reply rest)⟩ reference ∨
      Settling ⟨later, cfg.threads.set index (thread.resumed op reply rest)⟩ reference := by
  have present := List.mem_of_getElem? at_index
  have suspended : thread.Issues op := ⟨rest, program⟩
  have unmarked : ¬ InvoiceMarked cfg.world reference := by
    intro marked
    refine settled.closed marked thread present
      (reads_first balanced.warranted balanced.turning present suspended writes) ?_
    rw [program]
    exact .inl writes
  cases op with
  | sql statement =>
      cases statement with
      | upsertPaidInvoice walletAddress paid signature amount =>
          cases writes
          exact .inr (settling_marked balanced inOrder at_index program executed stepped)
      | upsertErrorInvoice walletAddress failed signature amount errReason =>
          cases writes
          refine .inl (settled_refused unmarked settled.agree ?_ executed)
          intro current member finalising
          obtain ⟨_, _, _, earlier, logged⟩ :=
            finalising.wrote (warranted_next balanced.warranted stepped) member
          rcases List.mem_or_eq_of_mem_set member with old | rfl
          · exact settled.nobody current old finalising
          · cases logged
      | upsertPaidCheckout checkout =>
          exact absurd ⟨checkout, suspended, Option.some.inj writes⟩ (settled.nobody thread present)
      | _ => cases writes
  | _ => cases writes

theorem settled_finalised {checkout : PaidCheckout}
    {rest : Reply (.sql (.upsertPaidCheckout checkout)) → Handler Answer}
    {reply : Reply (.sql (.upsertPaidCheckout checkout))}
    (program : thread.program = .call (.sql (.upsertPaidCheckout checkout)) rest)
    (executed : exec p choice (.sql (.upsertPaidCheckout checkout)) cfg.world = some (reply, later))
    (marked : InvoiceMarked cfg.world checkout.reference)
    (stands : ∀ invoice ∈ cfg.world.invoices, invoice.reference = checkout.reference →
      invoice.status = .paid ∧ invoice.signature = some checkout.signature)
    (nobody : NobodyElse cfg index checkout.reference)
    (stepped : (machine p).next cfg (.step index choice) =
      some ⟨later, cfg.threads.set index (thread.resumed _ reply rest)⟩) :
    Settled ⟨later, cfg.threads.set index (thread.resumed _ reply rest)⟩ checkout.reference := by
  have performs : Performs cfg (.step index choice : ServiceLabel) index thread (.sql (.upsertPaidCheckout checkout)) :=
    ⟨⟨choice, rfl⟩, at_index, rest, program⟩
  have turning := turning_next balanced.turning stepped
  have closed : ∀ current ∈ cfg.threads.set index (thread.resumed _ reply rest),
      HashRead current.log checkout.reference → ¬ current.program.May (Writes checkout.reference) := by
    intro current member read
    obtain ⟨j, at_j⟩ := List.mem_iff_getElem?.mp member
    by_cases moved : j = index
    · subst moved
      rw [List.getElem?_set_self (List.getElem?_eq_some_iff.mp at_index).1, Option.some.injEq] at at_j
      subst at_j
      exact writes_once turning member rfl
    · rw [List.getElem?_set_ne (Ne.symm moved)] at at_j
      exact nobody j current moved at_j read
  refine ⟨?_, ?_, fun _ => closed⟩
  · cases reply with
    | error fault => cases stepSucceeds_reply inOrder.succeeds performs executed
    | ok value =>
        obtain ⟨invoice, among, same, _⟩ := marked
        exact agree_of_finalised executed ⟨invoice, among, same, stands⟩
  · intro current member finalising
    have warranted := warranted_next balanced.warranted stepped
    have read : HashRead current.log checkout.reference := by
      obtain ⟨checkout', issues, same⟩ := finalising
      exact reads_first warranted turning member issues (congrArg some same)
    exact closed current member read finalising.may

end Writing

theorem balanced_next (balanced : Balanced p cfg) (inOrder : InOrder p cfg label)
    (stepped : (machine p).next cfg label = some after) : Balanced p after := by
  refine ⟨warranted_next balanced.warranted stepped, served_next balanced.served inOrder.arrivals stepped,
    turning_next balanced.turning stepped, fun reference => ?_⟩
  rcases balanced.either reference with settled | ⟨index, thread, checkout, at_index, suspended, rfl, marked, stands, nobody⟩
  · by_cases writing : ∃ index thread op, Performs cfg label index thread op ∧ Writes reference op
    · obtain ⟨index, thread, op, ⟨⟨choice, rfl⟩, at_index, suspended⟩, writes⟩ := writing
      obtain ⟨rest, reply, world, program, executed, rfl⟩ := step_issued stepped at_index suspended
      exact settled_written balanced inOrder at_index program executed settled writes stepped
    · refine .inl (settled_kept balanced inOrder stepped settled fun index thread op performs writes => ?_)
      exact writing ⟨index, thread, op, performs, writes⟩
  · by_cases own : ∃ choice, label = .step index choice
    · obtain ⟨choice, rfl⟩ := own
      obtain ⟨rest, reply, world, program, executed, rfl⟩ := step_issued stepped at_index suspended
      exact .inl (settled_finalised balanced inOrder at_index program executed marked stands nobody stepped)
    · refine .inr (settling_kept balanced inOrder stepped at_index suspended marked stands nobody ?_)
      exact fun choice here => own ⟨choice, here⟩

/-- Ledgers that agree at the start agree whenever nobody is being served, if a finaliser
marks an invoice only while nobody else who has read it may still write for its reference,
and nobody finds the invoice of a paid reference in the cache. -/
theorem ledgers_agree (start : init.threads = []) (agree : ∀ reference, Agree init.world reference)
    (run : (machine p).Reaches (InOrder p) init cfg) (waiting : idle cfg = true) :
    ∀ reference, Agree cfg.world reference := by
  have balanced := run.invariant (Balanced p)
    ⟨warranted_start start, by simp [Served, start], by simp [Disciplined, start],
      fun reference => .inl ⟨agree reference, by simp [start], by simp [start]⟩⟩
    fun _ _ _ balanced inOrder stepped => balanced_next balanced inOrder stepped
  intro reference
  rcases balanced.either reference with settled | ⟨index, thread, checkout, at_index, suspended, _⟩
  · exact settled.agree
  · have ended := List.all_eq_true.mp waiting thread (List.mem_of_getElem? at_index)
    exact absurd suspended (Thread.not_issues ended _)

def orderly (cfg : Service) (label : ServiceLabel) : Bool :=
  match label, performed cfg label with
  | .step index _, some (.sql (.upsertPaidInvoice _ reference _ _)) =>
      cfg.threads.zipIdx.all fun (other, j) => j = index || other.program.finished ||
        !other.log.any (Entry.readsHash (redisKey reference))
  | _, some (.redis (.hGetAll key)) =>
      cfg.world.cache.all (·.key ≠ key) ||
        cfg.world.invoices.all fun invoice => redisKey invoice.reference ≠ key || invoice.status ≠ .paid
  | _, _ => true

theorem inOrder_of_orderly (arrivals : offers Request.isLegacyCheckout cfg label = true)
    (succeeds : stepSucceeds p cfg label = true) (ordered : orderly cfg label = true) :
    InOrder p cfg label where
  arrivals := arrivals
  succeeds := succeeds
  marks index thread walletAddress reference signature amount performs j other elsewhere at_j read := by
    obtain ⟨⟨choice, rfl⟩, _⟩ := id performs
    simp only [orderly, performs.performed, List.all_eq_true, Bool.or_eq_true, decide_eq_true_eq] at ordered
    rcases ordered (other, j) (List.mem_zipIdx_iff_getElem?.mpr at_j) with (same | ended) | unread
    · exact absurd same elsewhere
    · exact Program.May.of_finished ended
    · simp [read.any] at unread
  reads index thread reference performs marked cached among := by
    obtain ⟨⟨choice, rfl⟩, _⟩ := id performs
    obtain ⟨invoice, listed, same, paid⟩ := marked
    simp only [orderly, performs.performed, List.all_eq_true, Bool.or_eq_true, decide_eq_true_eq] at ordered
    rcases ordered with gone | unpaid
    · exact gone cached among
    · rcases unpaid invoice listed with other | other
      · exact absurd (congrArg redisKey same) other
      · exact absurd paid other

/-- A confirmation that fails before the invoice is paid and one that comes after it do no harm. -/
theorem ledgers_agree_meetup :
    ∃ cfg : Service, (∃ row ∈ cfg.world.checkouts, row.status = .paid) ∧
      ∀ reference, Agree cfg.world reference := by
  obtain ⟨cfg, run, done⟩ := run_meets (machine Mainnet.platform)
    (fun cfg label => offers Request.isLegacyCheckout cfg label &&
      stepSucceeds Mainnet.platform cfg label && orderly cfg label)
    (.arrive (Mainnet.confirm Mainnet.uuid1 Mainnet.signatureText1) ::
      .arrive (Mainnet.confirm Mainnet.uuid1 "unsigned") ::
      Mainnet.steps 0 1 "" ++ Mainnet.steps 1 3 "" ++ Mainnet.steps 0 7 "" ++
      .arrive (Mainnet.confirm Mainnet.uuid1 "unsigned") :: Mainnet.steps 2 1 "")
    (Mainnet.awaiting [Mainnet.landed Mainnet.signature1 [Mainnet.uuid1]])
    (fun cfg => idle cfg && cfg.world.checkouts.any (·.isPaid)) (by decide +kernel)
  simp only [Bool.and_eq_true, List.any_eq_true] at run done
  obtain ⟨waiting, row, member, paid⟩ := done
  have ordered : (machine Mainnet.platform).Reaches (InOrder Mainnet.platform) _ cfg :=
    run.mono fun _ _ meets => inOrder_of_orderly meets.1.1 meets.1.2 meets.2
  refine ⟨cfg, ⟨row, member, by simpa [CheckoutRow.isPaid] using paid⟩, ?_⟩
  exact ledgers_agree rfl (fun reference => ⟨by simp [Mainnet.awaiting, Mainnet.opening],
    by simp [Mainnet.awaiting, Mainnet.opening]⟩) ordered waiting

/-- A confirmation under a wrong signature has read the invoice when the right one goes
through; its error then replaces the paid invoice, the checkout stays paid. -/
theorem paid_invoice_overwritten :
    ∃ cfg : Service, (machine Mainnet.platform).Reaches
        (fun cfg label => offers Request.isLegacyCheckout cfg label = true ∧
          stepSucceeds Mainnet.platform cfg label = true)
        (Mainnet.awaiting [Mainnet.landed Mainnet.signature1 [Mainnet.uuid1]]) cfg ∧
      idle cfg = true ∧ ¬ Agree cfg.world Mainnet.uuid1 := by
  obtain ⟨cfg, run, done⟩ := run_meets (machine Mainnet.platform)
    (fun cfg label => offers Request.isLegacyCheckout cfg label &&
      stepSucceeds Mainnet.platform cfg label)
    (.arrive (Mainnet.confirm Mainnet.uuid1 Mainnet.signatureText1) ::
      .arrive (Mainnet.confirm Mainnet.uuid1 "unsigned") ::
      Mainnet.steps 1 1 "" ++ Mainnet.steps 0 8 "" ++ Mainnet.steps 1 2 "")
    (Mainnet.awaiting [Mainnet.landed Mainnet.signature1 [Mainnet.uuid1]])
    (fun cfg => idle cfg && cfg.world.checkouts.any (fun row =>
        row.reference = Mainnet.uuid1 && row.isPaid) &&
      cfg.world.invoices.all fun invoice => invoice.status ≠ .paid) (by decide +kernel)
  simp only [Bool.and_eq_true, List.any_eq_true, List.all_eq_true, decide_eq_true_eq,
    CheckoutRow.isPaid] at run done
  obtain ⟨⟨waiting, row, member, same, paid⟩, unpaid⟩ := done
  refine ⟨cfg, run, waiting, fun agree => ?_⟩
  obtain ⟨invoice, among, _, also⟩ := agree.paid.mp ⟨row, member, same, paid⟩
  exact unpaid invoice among also

end Agreement

end Payknot
