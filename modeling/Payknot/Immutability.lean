import Payknot.LedgerWrites
import Payknot.Mainnet
import Mathlib.Data.List.Nodup

/-! Paid receipts are immutable ("Store immutable transaction reference/signature"). The
upsert of the finalisers overwrites on conflict and the sweep updates by id, neither
looking at the status; everything else leaves a paid row alone. -/
namespace Payknot
open GoText Interleaving Machine

variable {p : Platform} {init cfg after : Service} {label : ServiceLabel}

/-- The primary key: ids are distinct and come from the column's sequence. -/
structure Numbered (w : World) : Prop where
  distinct : (w.checkouts.map (·.id)).Nodup
  drawn : ∀ row ∈ w.checkouts, row.id < w.nextCheckoutId

/-- The operation is the upsert that marks the reference's checkout paid. -/
def Settles (reference : String) (op : Op) : Prop :=
  ∃ checkout, op = .sql (.upsertPaidCheckout checkout) ∧ checkout.reference = reference

/-- Who else has read the reference's invoice from the cache no longer marks its checkout paid. -/
def NoOtherReader (cfg : Service) (index : Nat) (reference : String) : Prop :=
  Others cfg index fun other => HashRead other.log reference → ¬ other.program.May (Settles reference)

def NoOtherSweep (cfg : Service) (index : Nat) (id : Nat) : Prop :=
  Others cfg index fun other => Selected other.log id → ¬ other.program.May (Marks id)

/-- No event is deleted. A checkout is marked paid while no other request that has read its
invoice or selected its row may still mark it, and the invoice of a paid reference is gone
from the cache for who comes to read it. -/
structure SettlesAlone (cfg : Service) (label : ServiceLabel) : Prop where
  arrivals : offers Request.keepsEvents cfg label = true
  reads : ∀ index thread reference, Performs cfg label index thread (.redis (.hGetAll (redisKey reference))) →
    ∀ row ∈ cfg.world.checkouts, row.reference = reference → row.status = .paid →
    ∀ cached ∈ cfg.world.cache, cached.key ≠ redisKey reference
  stores : ∀ index thread op checkout, Performs cfg label index thread op →
    op = .sql (.upsertPaidCheckout checkout) ∨ op = .sql (.insertPaidCheckout checkout) →
    NoOtherReader cfg index checkout.reference ∧
      ∀ row ∈ cfg.world.checkouts, row.reference = checkout.reference → NoOtherSweep cfg index row.id
  sweeps : ∀ index thread id signature senderWallet,
    Performs cfg label index thread (.sql (.markCheckoutPaid id signature senderWallet)) →
    NoOtherSweep cfg index id ∧ ∀ row ∈ cfg.world.checkouts, row.id = id → NoOtherReader cfg index row.reference

section Numbers
variable {choice : Choice} {op : Op} {w later : World} {reply : Reply op}

theorem Numbered.exec (numbered : Numbered w) (executed : exec p choice op w = some (reply, later)) :
    Numbered later ∧ w.nextCheckoutId ≤ later.nextCheckoutId := by
  have drawn : ∀ id ∈ w.checkouts.map (·.id), id < w.nextCheckoutId := by
    intro id among
    obtain ⟨row, member, rfl⟩ := List.mem_map.mp among
    exact numbered.drawn row member
  rcases exec_checkoutIds executed with ⟨same, ids⟩ | ⟨next, ids⟩
  · refine ⟨⟨ids.nodup numbered.distinct, fun row member => ?_⟩, same.ge⟩
    rw [same]
    exact drawn row.id (ids.subset (List.mem_map_of_mem member))
  · refine ⟨⟨?_, fun row member => ?_⟩, by omega⟩
    · rw [ids, List.nodup_append]
      refine ⟨numbered.distinct, by simp, ?_⟩
      rintro id among _ last rfl
      rw [List.mem_singleton] at last
      exact absurd (drawn id among) (by omega)
    · have among : row.id ∈ later.checkouts.map (·.id) := List.mem_map_of_mem member
      rw [ids, List.mem_append, List.mem_singleton] at among
      rcases among with older | newest
      · have := drawn row.id older
        omega
      · omega

theorem numbered_next (numbered : Numbered cfg.world) (stepped : (machine p).next cfg label = some after) :
    Numbered after.world ∧ cfg.world.nextCheckoutId ≤ after.world.nextCheckoutId := by
  rcases next_cases stepped with ⟨request, rfl, rfl⟩ | ⟨event, world, rfl, occurred, rfl⟩ |
    ⟨index, choice, thread, op, rest, reply, world, rfl, _, _, executed, rfl⟩
  · exact ⟨numbered, le_rfl⟩
  · have rows : world.checkouts = cfg.world.checkouts := occur_frame .checkouts occurred (by decide)
    have ids : world.nextCheckoutId = cfg.world.nextCheckoutId := occur_frame .checkoutIds occurred (by decide)
    refine ⟨⟨?_, ?_⟩, ids.ge⟩
    · rw [rows]
      exact numbered.distinct
    · rw [rows, ids]
      exact numbered.drawn
  · exact numbered.exec executed

theorem recoverable_some {stored : CheckoutRow} {row : CheckoutRecoveryRow}
    (found : recoverable w stored = some row) : row.id = stored.id ∧ stored.status ≠ .paid := by
  unfold recoverable at found
  split at found
  · next old =>
    split at found
    · split at found
      · cases found
        refine ⟨rfl, ?_⟩
        rcases old.2 with pending | failed
        · simp [pending]
        · simp [failed]
      · cases found
    · cases found
  · cases found

theorem recoverable_ids (checkouts : List CheckoutRow) :
    ((checkouts.filterMap (recoverable w)).map (·.id)).Sublist (checkouts.map (·.id)) := by
  induction checkouts with
  | nil => exact List.Sublist.refl _
  | cons stored rest ih =>
      cases found : recoverable w stored with
      | none =>
          rw [List.filterMap_cons_none found, List.map_cons]
          exact ih.cons _
      | some row =>
          rw [List.filterMap_cons_some found, List.map_cons, List.map_cons, (recoverable_some found).1]
          exact ih.cons_cons _

-- What the sweep selects are unpaid rows, none twice.
theorem selected_rows (numbered : Numbered w) {rows : List CheckoutRecoveryRow}
    (executed : exec p choice (.sql .selectRecoverable) w = some (.ok rows, later)) :
    (rows.map (·.id)).Nodup ∧ ∀ row ∈ rows, ∃ stored ∈ w.checkouts, stored.id = row.id ∧ stored.status ≠ .paid := by
  rcases exec_sql executed with ⟨_, wrong, _⟩ | ⟨value, same, ran⟩
  · cases wrong
  cases same
  simp only [Sql.run, Except.ok.injEq, Prod.mk.injEq] at ran
  obtain ⟨rfl, _⟩ := ran
  constructor
  · refine ((List.take_sublist _ _).map _).nodup ?_
    refine ((List.mergeSort_perm _ _).map _).nodup_iff.mpr ?_
    exact (recoverable_ids _).nodup numbered.distinct
  · intro row among
    have listed := (List.mergeSort_perm _ _).subset ((List.take_sublist _ _).subset among)
    obtain ⟨stored, member, found⟩ := List.mem_filterMap.mp listed
    obtain ⟨same, unpaid⟩ := recoverable_some found
    exact ⟨stored, member, same.symm, unpaid⟩

end Numbers

section Sealing

structure Sealed (cfg : Service) (row : CheckoutRow) : Prop where
  readers : ∀ thread ∈ cfg.threads, HashRead thread.log row.reference → ¬ thread.program.May (Settles row.reference)
  sweeps : ∀ thread ∈ cfg.threads, Selected thread.log row.id → ¬ thread.program.May (Marks row.id)

structure Receipting (p : Platform) (cfg : Service) : Prop where
  warranted : Warranted p cfg
  served : Served Request.keepsEvents cfg
  turning : Turning cfg
  sweeping : Sweeping cfg
  numbered : Numbered cfg.world
  selections : ∀ thread ∈ cfg.threads, ∀ rows, thread.log.Saw (.sql .selectRecoverable) (.ok rows) →
    (rows.map (·.id)).Nodup ∧ ∀ row ∈ rows, row.id < cfg.world.nextCheckoutId
  sealed : ∀ row ∈ cfg.world.checkouts, row.status = .paid → Sealed cfg row

theorem Settles.writes {reference : String} {op : Op} (settles : Settles reference op) : Writes reference op := by
  obtain ⟨checkout, rfl, rfl⟩ := settles
  rfl

theorem finaliser_apart {request : Request}
    (finaliser : request.isLegacyFinaliser = true ∨ request.isV1Finaliser = true) :
    request.isManualVerify = false ∧ request ≠ .recoverErrorInvoices := by
  cases request <;> simp [Request.isLegacyFinaliser, Request.isV1Finaliser] at finaliser <;>
    exact ⟨rfl, by simp⟩

-- Only finalisers settle, and only the sweep marks.
theorem settles_finaliser (warranted : Warranted p cfg) {thread : ServiceThread} (member : thread ∈ cfg.threads)
    {reference : String} (may : thread.program.May (Settles reference)) :
    thread.request.isLegacyFinaliser = true ∨ thread.request.isV1Finaliser = true := by
  obtain ⟨log, op, _, ⟨checkout, rfl, _⟩, issues⟩ := (warranted thread member).may may
  obtain ⟨_, _, finalises⟩ := issues
  obtain ⟨_, agreed, _⟩ := finalises.agreed
  rcases agreed.terms with ⟨legacy, _⟩ | ⟨v1, _⟩
  · exact .inl legacy
  · exact .inr v1

theorem marks_sweep (warranted : Warranted p cfg) {thread : ServiceThread} (member : thread ∈ cfg.threads)
    {id : Nat} (may : thread.program.May (Marks id)) : thread.request = .recoverErrorInvoices := by
  obtain ⟨log, op, _, ⟨signature, senderWallet, rfl⟩, issues⟩ := (warranted thread member).may may
  exact issues.1

section Step
variable (receipting : Receipting p cfg) (alone : SettlesAlone cfg label)
variable (stepped : (machine p).next cfg label = some after) {row : CheckoutRow}
include receipting stepped

theorem receipt_kept (member : row ∈ cfg.world.checkouts) (paid : row.status = .paid) :
    row ∈ after.world.checkouts := by
  have shut := receipting.sealed row member paid
  rcases next_cases stepped with ⟨request, rfl, rfl⟩ | ⟨event, world, rfl, occurred, rfl⟩ |
    ⟨index, choice, thread, op, rest, reply, world, rfl, at_index, program, executed, rfl⟩
  · exact member
  · have unchanged : world.checkouts = cfg.world.checkouts := occur_frame .checkouts occurred (by decide)
    rw [unchanged]
    exact member
  · have present := List.mem_of_getElem? at_index
    have suspended : thread.Issues op := ⟨rest, program⟩
    rcases checkout_fate executed member with stays | ⟨checkout, data, rfl, same, _⟩ |
      ⟨signature, sender, rfl, _⟩ | ⟨owner, rfl⟩ | unpaid
    · exact stays
    · have read : HashRead thread.log row.reference := by
        rw [same]
        exact reads_first receipting.warranted receipting.turning present suspended rfl
      refine absurd ?_ (shut.readers thread present read)
      rw [program]
      exact .inl ⟨checkout, rfl, same.symm⟩
    · obtain ⟨_, rows, selected, saw, among, same⟩ := receipting.warranted.issues present suspended
      refine absurd ?_ (shut.sweeps thread present ⟨rows, saw, selected, among, same⟩)
      rw [program]
      exact .inl ⟨signature, sender, rfl⟩
    · exact absurd suspended (no_deleteEvent receipting.warranted receipting.served present)
    · exact absurd paid unpaid

theorem selections_next : ∀ thread ∈ after.threads, ∀ rows, thread.log.Saw (.sql .selectRecoverable) (.ok rows) →
    (rows.map (·.id)).Nodup ∧ ∀ row ∈ rows, row.id < after.world.nextCheckoutId := by
  intro current member rows saw
  have grown := (numbered_next receipting.numbered stepped).2
  obtain ⟨index, found⟩ := List.mem_iff_getElem?.mp member
  rcases saw_after stepped found saw with ⟨thread, old, _, before⟩ | ⟨choice, thread, rest, _, _, _, executed, _⟩
  · obtain ⟨distinct, drawn⟩ := receipting.selections thread (List.mem_of_getElem? old) rows before
    exact ⟨distinct, fun row among => (drawn row among).trans_le grown⟩
  · obtain ⟨distinct, stored⟩ := selected_rows receipting.numbered executed
    refine ⟨distinct, fun row among => ?_⟩
    obtain ⟨checkout, member, same, _⟩ := stored row among
    rw [← same]
    exact (receipting.numbered.drawn checkout member).trans_le grown

include alone

theorem sealed_kept (member : row ∈ cfg.world.checkouts) (paid : row.status = .paid) : Sealed after row := by
  have shut := receipting.sealed row member paid
  constructor
  · intro current among read may
    obtain ⟨index, found⟩ := List.mem_iff_getElem?.mp among
    obtain ⟨thread, at_index, read, may⟩ := may_before stepped
      (fun index thread performs => alone.reads index thread row.reference performs row member rfl paid) found read may
    exact shut.readers thread (List.mem_of_getElem? at_index) read may
  · rintro current among ⟨rows, saw, selected, listed, same⟩ may
    obtain ⟨index, found⟩ := List.mem_iff_getElem?.mp among
    rcases thread_after stepped found with old | ⟨request, _, rfl, _⟩ |
      ⟨choice, thread, op, rest, reply, rfl, at_index, program, executed, rfl⟩
    · exact shut.sweeps current (List.mem_of_getElem? old) ⟨rows, saw, selected, listed, same⟩ may
    · exact absurd saw (by simp [Log.Saw])
    · rcases List.mem_cons.mp saw with now | before
      · -- The row is paid, so the sweep has not just selected it.
        cases now
        obtain ⟨_, stored⟩ := selected_rows receipting.numbered executed
        obtain ⟨checkout, present, id, unpaid⟩ := stored selected listed
        have twin := List.inj_on_of_nodup_map receipting.numbered.distinct present member (id.trans same)
        rw [twin] at unpaid
        exact unpaid paid
      · refine shut.sweeps thread (List.mem_of_getElem? at_index) ⟨rows, before, selected, listed, same⟩ ?_
        rw [program]
        exact .inr ⟨reply, may⟩

end Step

-- Whoever marks a row paid, alone with it and for the last time, seals it.
theorem sealed_marked {index : Nat} {moved : ServiceThread} {world : World} {row : CheckoutRow}
    (inside : index < cfg.threads.length) (reader : NoOtherReader cfg index row.reference)
    (sweep : NoOtherSweep cfg index row.id) (settled : ¬ moved.program.May (Settles row.reference))
    (marked : ¬ moved.program.May (Marks row.id)) : Sealed ⟨world, cfg.threads.set index moved⟩ row := by
  have thread_cases {current : ServiceThread} (member : current ∈ cfg.threads.set index moved) :
      current = moved ∨ ∃ j, j ≠ index ∧ cfg.threads[j]? = some current := by
    obtain ⟨j, found⟩ := List.mem_iff_getElem?.mp member
    by_cases here : j = index
    · subst here
      rw [List.getElem?_set_self inside, Option.some.injEq] at found
      exact .inl found.symm
    · rw [List.getElem?_set_ne (Ne.symm here)] at found
      exact .inr ⟨j, here, found⟩
  constructor
  · intro current member read
    rcases thread_cases member with rfl | ⟨j, elsewhere, at_j⟩
    · exact settled
    · exact reader j current elsewhere at_j read
  · intro current member selected
    rcases thread_cases member with rfl | ⟨j, elsewhere, at_j⟩
    · exact marked
    · exact sweep j current elsewhere at_j selected

theorem paid_origin {choice : Choice} {op : Op} {w later : World} {reply : Reply op}
    (executed : exec p choice op w = some (reply, later)) {row : CheckoutRow} (member : row ∈ later.checkouts)
    (paid : row.status = .paid) :
    row ∈ w.checkouts ∨
    (∃ checkout, (op = .sql (.upsertPaidCheckout checkout) ∨ op = .sql (.insertPaidCheckout checkout)) ∧
      row.reference = checkout.reference ∧
      (row.id = w.nextCheckoutId ∨ ∃ old ∈ w.checkouts, old.reference = checkout.reference ∧ old.id = row.id)) ∨
    ∃ signature senderWallet, op = .sql (.markCheckoutPaid row.id signature senderWallet) ∧
      ∃ old ∈ w.checkouts, old.id = row.id ∧ old.reference = row.reference := by
  rcases exec_checkouts executed with unchanged | ⟨checkout, data, rfl, _, _, written⟩ |
    ⟨checkout, data, issued, _, _, added⟩ | ⟨reference, rfl, removed⟩ |
    ⟨id, signature, sender, rfl, marked⟩ | ⟨id, rfl, failed⟩ | ⟨id, ownerEmail, rfl, removed⟩
  · rw [unchanged] at member
    exact .inl member
  · rw [written] at member
    obtain ⟨old, among, ⟨chosen, rfl⟩ | ⟨_, rfl⟩⟩ := mem_updateWhere member
    · have same : old.reference = checkout.reference := by simpa using chosen
      exact .inr (.inl ⟨checkout, .inl rfl, same, .inr ⟨old, among, same, rfl⟩⟩)
    · exact .inl among
  · rw [added, List.mem_append, List.mem_singleton] at member
    rcases member with older | rfl
    · exact .inl older
    · exact .inr (.inl ⟨checkout, issued, rfl, .inl rfl⟩)
  · rw [removed] at member
    exact .inl (List.mem_filter.mp member).1
  · rw [marked] at member
    obtain ⟨old, among, ⟨chosen, rfl⟩ | ⟨_, rfl⟩⟩ := mem_updateWhere member
    · have same : old.id = id := by simpa using chosen
      subst same
      exact .inr (.inr ⟨signature, sender, rfl, old, among, rfl, rfl⟩)
    · exact .inl among
  · rw [failed] at member
    obtain ⟨old, among, ⟨_, rfl⟩ | ⟨_, rfl⟩⟩ := mem_updateWhere member
    · cases paid
    · exact .inl among
  · rw [removed] at member
    exact .inl (List.mem_filter.mp member).1

section Marking
variable {index : Nat} {choice : Choice} {thread : ServiceThread} {op : Op} {rest : Reply op → Handler Answer}
variable {reply : Reply op} {world : World} {row : CheckoutRow}
variable (receipting : Receipting p cfg) (alone : SettlesAlone cfg (.step index choice : ServiceLabel))
variable (at_index : cfg.threads[index]? = some thread) (program : thread.program = .call op rest)
variable (stepped : (machine p).next cfg (.step index choice) =
  some ⟨world, cfg.threads.set index (thread.resumed op reply rest)⟩)
include receipting alone at_index program stepped

-- A request that stores a paid checkout has no other write to it left.
theorem sealed_stored {checkout : PaidCheckout}
    (issued : op = .sql (.upsertPaidCheckout checkout) ∨ op = .sql (.insertPaidCheckout checkout))
    (same : row.reference = checkout.reference)
    (row_id : row.id = cfg.world.nextCheckoutId ∨
      ∃ old ∈ cfg.world.checkouts, old.reference = checkout.reference ∧ old.id = row.id) :
    Sealed ⟨world, cfg.threads.set index (thread.resumed op reply rest)⟩ row := by
  have present := List.mem_of_getElem? at_index
  have inside := (List.getElem?_eq_some_iff.mp at_index).1
  have suspended : thread.Issues op := ⟨rest, program⟩
  have moved : thread.resumed op reply rest ∈ cfg.threads.set index (thread.resumed op reply rest) :=
    List.mem_of_getElem? (List.getElem?_set_self inside)
  have warranted := warranted_next receipting.warranted stepped
  have turning := turning_next receipting.turning stepped
  obtain ⟨reader, sweeps⟩ := alone.stores index thread op checkout ⟨⟨choice, rfl⟩, at_index, suspended⟩ issued
  have sweep : NoOtherSweep cfg index row.id := by
    rcases row_id with fresh | ⟨before, among, named, id⟩
    · rintro j other _ at_j ⟨rows, saw, selected, listed, same⟩
      have drawn := (receipting.selections other (List.mem_of_getElem? at_j) rows saw).2 selected listed
      omega
    · rw [← id]
      exact sweeps before among named
  rw [← same] at reader
  refine sealed_marked inside reader sweep (fun may => ?_) fun may => ?_
  · have finaliser := settles_finaliser warranted moved may
    rcases issued with rfl | rfl
    · exact writes_once turning moved rfl (may.mono fun _ settles => settles.writes)
    · obtain ⟨manual, _⟩ := receipting.warranted.issues present suspended
      exact Bool.noConfusion ((finaliser_apart finaliser).1.symm.trans manual)
  · have sweeping := marks_sweep warranted moved may
    change thread.request = .recoverErrorInvoices at sweeping
    rcases issued with rfl | rfl
    · have settles : thread.program.May (Settles checkout.reference) := by
        rw [program]
        exact .inl ⟨checkout, rfl, rfl⟩
      exact (finaliser_apart (settles_finaliser receipting.warranted present settles)).2 sweeping
    · obtain ⟨manual, _⟩ := receipting.warranted.issues present suspended
      rw [sweeping] at manual
      cases manual

-- A sweep that marks a row has it behind itself.
theorem sealed_swept {signature senderWallet : String} (issued : op = .sql (.markCheckoutPaid row.id signature senderWallet))
    (known : ∃ old ∈ cfg.world.checkouts, old.id = row.id ∧ old.reference = row.reference) :
    Sealed ⟨world, cfg.threads.set index (thread.resumed op reply rest)⟩ row := by
  subst issued
  obtain ⟨before, among, id, same⟩ := known
  have present := List.mem_of_getElem? at_index
  have inside := (List.getElem?_eq_some_iff.mp at_index).1
  have suspended : thread.Issues _ := ⟨rest, program⟩
  have moved : thread.resumed _ reply rest ∈ cfg.threads.set index (thread.resumed _ reply rest) :=
    List.mem_of_getElem? (List.getElem?_set_self inside)
  have warranted := warranted_next receipting.warranted stepped
  obtain ⟨sweep, readers⟩ :=
    alone.sweeps index thread row.id signature senderWallet ⟨⟨choice, rfl⟩, at_index, suspended⟩
  have reader := readers before among id
  rw [same] at reader
  refine sealed_marked inside reader sweep (fun may => ?_) ?_
  · obtain ⟨sweeping, _⟩ := receipting.warranted.issues present suspended
    exact (finaliser_apart (settles_finaliser warranted moved may)).2 sweeping
  · obtain ⟨rows, first, _⟩ := receipting.sweeping.issues present suspended row.id ⟨signature, senderWallet, rfl⟩
    have distinct := (receipting.selections thread present rows first.saw).1
    refine marks_once (sweeping_next receipting.sweeping stepped) moved
      (first.trans (List.suffix_cons _ _)) distinct ?_
    exact ⟨_, List.mem_cons_self, signature, senderWallet, rfl⟩

end Marking

theorem sealed_next (receipting : Receipting p cfg) (alone : SettlesAlone cfg label)
    (stepped : (machine p).next cfg label = some after) :
    ∀ row ∈ after.world.checkouts, row.status = .paid → Sealed after row := by
  intro row member paid
  have old (among : row ∈ cfg.world.checkouts) : Sealed after row :=
    sealed_kept receipting alone stepped among paid
  rcases next_cases stepped with ⟨request, rfl, rfl⟩ | ⟨event, world, rfl, occurred, rfl⟩ |
    ⟨index, choice, thread, op, rest, reply, world, rfl, at_index, program, executed, rfl⟩
  · exact old member
  · have unchanged : world.checkouts = cfg.world.checkouts := occur_frame .checkouts occurred (by decide)
    rw [unchanged] at member
    exact old member
  · rcases paid_origin executed member paid with among | ⟨checkout, issued, same, row_id⟩ |
      ⟨signature, senderWallet, issued, known⟩
    · exact old among
    · exact sealed_stored receipting alone at_index program stepped issued same row_id
    · exact sealed_swept receipting alone at_index program stepped issued known

theorem receipting_next (receipting : Receipting p cfg) (alone : SettlesAlone cfg label)
    (stepped : (machine p).next cfg label = some after) : Receipting p after where
  warranted := warranted_next receipting.warranted stepped
  served := served_next receipting.served alone.arrivals stepped
  turning := turning_next receipting.turning stepped
  sweeping := sweeping_next receipting.sweeping stepped
  numbered := (numbered_next receipting.numbered stepped).1
  selections := selections_next receipting stepped
  sealed := sealed_next receipting alone stepped

end Sealing

/-- Whatever the stores held at the start and however the requests interleave: a row that
is paid stays as it is in every column, if nobody marks a checkout paid while another
request that knows its invoice or its row may do so too. -/
theorem paid_receipts_immutable (start : init.threads = []) (numbered : Numbered init.world)
    {mid last : Service} (before : (machine p).Reaches SettlesAlone init mid)
    (since : (machine p).Reaches SettlesAlone mid last)
    {row : CheckoutRow} (member : row ∈ mid.world.checkouts) (paid : row.status = .paid) :
    row ∈ last.world.checkouts := by
  have reached := before.invariant (Receipting p)
    ⟨warranted_start start, by simp [Served, start], by simp [Disciplined, start], by simp [Disciplined, start],
      numbered, by simp [start], fun _ _ _ => ⟨by simp [start], by simp [start]⟩⟩
    fun _ _ _ receipting alone stepped => receipting_next receipting alone stepped
  have kept := since.invariant (fun cfg => Receipting p cfg ∧ row ∈ cfg.world.checkouts) ⟨reached, member⟩
    fun _ _ _ held alone stepped =>
      ⟨receipting_next held.1 alone stepped, receipt_kept held.1 stepped held.2 paid⟩
  exact kept.2

def nobodyElse (cfg : Service) (index : Nat) : Bool :=
  cfg.threads.zipIdx.all fun (other, j) => j = index || other.program.finished

theorem others_of_nobodyElse {index : Nat} (nobody : nobodyElse cfg index = true) (bad : Op → Prop) :
    Others cfg index fun other => ¬ other.program.May bad := by
  intro j other elsewhere at_j
  have ended := List.all_eq_true.mp nobody (other, j) (List.mem_zipIdx_iff_getElem?.mpr at_j)
  simp only [elsewhere, decide_false, Bool.false_or] at ended
  exact Program.May.of_finished ended

/-- The condition, where one can compute it: nobody else is being served when a checkout is marked. -/
def marksAlone (cfg : Service) (label : ServiceLabel) : Bool :=
  offers Request.keepsEvents cfg label &&
    match label, performed cfg label with
    | .step index _, some (.sql (.upsertPaidCheckout _)) => nobodyElse cfg index
    | .step index _, some (.sql (.insertPaidCheckout _)) => nobodyElse cfg index
    | .step index _, some (.sql (.markCheckoutPaid _ _ _)) => nobodyElse cfg index
    | _, some (.redis (.hGetAll key)) =>
        cfg.world.cache.all (·.key ≠ key) ||
          cfg.world.checkouts.all fun row => redisKey row.reference ≠ key || !row.isPaid
    | _, _ => true

theorem settlesAlone_of_marksAlone (alone : marksAlone cfg label = true) : SettlesAlone cfg label := by
  unfold marksAlone at alone
  rw [Bool.and_eq_true] at alone
  obtain ⟨arrivals, alone⟩ := alone
  refine ⟨arrivals, ?_, ?_, ?_⟩
  · intro index thread reference performs row member same paid cached among
    obtain ⟨⟨choice, rfl⟩, _⟩ := id performs
    simp only [performs.performed, Bool.or_eq_true, List.all_eq_true, decide_eq_true_eq] at alone
    rcases alone with gone | unpaid
    · exact gone cached among
    · simpa [same, CheckoutRow.isPaid, paid] using unpaid row member
  · intro index thread op checkout performs issued
    obtain ⟨⟨choice, rfl⟩, _⟩ := id performs
    simp only [performs.performed] at alone
    have nobody : nobodyElse cfg index = true := by
      rcases issued with rfl | rfl <;> exact alone
    exact ⟨fun j other elsewhere at_j _ => others_of_nobodyElse nobody _ j other elsewhere at_j,
      fun _ _ _ j other elsewhere at_j _ => others_of_nobodyElse nobody _ j other elsewhere at_j⟩
  · intro index thread id signature senderWallet performs
    obtain ⟨⟨choice, rfl⟩, at_index, issues⟩ := performs
    have performs : Performs cfg (.step index choice : ServiceLabel) index thread
        (.sql (.markCheckoutPaid id signature senderWallet)) := ⟨⟨choice, rfl⟩, at_index, issues⟩
    simp only [performs.performed] at alone
    exact ⟨fun j other elsewhere at_j _ => others_of_nobodyElse alone _ j other elsewhere at_j,
      fun _ _ _ j other elsewhere at_j _ => others_of_nobodyElse alone _ j other elsewhere at_j⟩

/-- A confirmation that has read the invoice fails before the other one marks the checkout; one
with the other payment and a sweep come after it. -/
theorem paid_receipts_immutable_meetup :
    ∃ mid last : Service, mid.threads.length + 2 = last.threads.length ∧ idle last = true ∧
      ∃ row ∈ mid.world.checkouts, row.status = .paid ∧ row ∈ last.world.checkouts := by
  obtain ⟨mid, before, done⟩ := run_meets (machine Mainnet.platform) marksAlone
    (.arrive (Mainnet.confirm Mainnet.uuid1 Mainnet.signatureText1) ::
      .arrive (Mainnet.confirm Mainnet.uuid1 "unsigned") ::
      Mainnet.steps 0 1 "" ++ Mainnet.steps 1 3 "" ++ Mainnet.steps 0 7 "")
    (Mainnet.awaiting [Mainnet.landed Mainnet.signature2 [Mainnet.uuid1],
      Mainnet.landed Mainnet.signature1 [Mainnet.uuid1]])
    (fun mid => mid.world.checkouts.any (·.isPaid) && ((machine Mainnet.platform).run marksAlone
      (.arrive (Mainnet.confirm Mainnet.uuid1 Mainnet.signatureText2) :: Mainnet.steps 2 1 "" ++
        .arrive .recoverErrorInvoices :: Mainnet.steps 3 1 "") mid).any fun last =>
          mid.threads.length + 2 = last.threads.length && idle last) (by decide +kernel)
  simp only [List.any_eq_true, Bool.and_eq_true, Option.any_eq_true, CheckoutRow.isPaid,
    decide_eq_true_eq] at done
  obtain ⟨⟨row, member, paid⟩, last, ran, later, waiting⟩ := done
  have since := run_reaches _ _ _ _ _ ran
  have numbered : Numbered (Mainnet.awaiting [Mainnet.landed Mainnet.signature2 [Mainnet.uuid1],
      Mainnet.landed Mainnet.signature1 [Mainnet.uuid1]]).world := ⟨List.nodup_nil, by simp [Mainnet.awaiting, Mainnet.opening]⟩
  refine ⟨mid, last, later, waiting, row, member, paid, ?_⟩
  exact paid_receipts_immutable rfl numbered (before.mono fun _ _ => settlesAlone_of_marksAlone)
    (since.mono fun _ _ => settlesAlone_of_marksAlone) member paid

/-- Two confirmations of one session read its invoice before either is through; the
second one replaces the signature of the paid row. -/
theorem receipt_overwritten :
    ∃ mid last : Service,
      (machine Mainnet.platform).Reaches
        (fun cfg label => offers Request.isLegacyFinaliser cfg label = true)
        (Mainnet.awaiting [Mainnet.landed Mainnet.signature2 [Mainnet.uuid1],
          Mainnet.landed Mainnet.signature1 [Mainnet.uuid1]]) mid ∧
      (machine Mainnet.platform).Reaches
        (fun cfg label => offers Request.isLegacyFinaliser cfg label = true) mid last ∧
      ∃ row ∈ mid.world.checkouts, row.status = .paid ∧ ∃ other ∈ last.world.checkouts,
        other.reference = row.reference ∧ other.status = .paid ∧ other.signature ≠ row.signature := by
  obtain ⟨mid, run, done⟩ := run_meets (machine Mainnet.platform) (offers Request.isLegacyFinaliser)
    (.arrive (Mainnet.confirm Mainnet.uuid1 Mainnet.signatureText1) ::
      .arrive (Mainnet.confirm Mainnet.uuid1 Mainnet.signatureText2) ::
      Mainnet.steps 1 1 "" ++ Mainnet.steps 0 8 "")
    (Mainnet.awaiting [Mainnet.landed Mainnet.signature2 [Mainnet.uuid1],
      Mainnet.landed Mainnet.signature1 [Mainnet.uuid1]])
    (fun mid => mid.world.checkouts.any fun row => row.isPaid &&
      ((machine Mainnet.platform).run (offers Request.isLegacyFinaliser) (Mainnet.steps 1 5 "")
        mid).any fun last => last.world.checkouts.any fun other =>
          decide (other.reference = row.reference) && other.isPaid &&
            decide (other.signature ≠ row.signature)) (by decide +kernel)
  simp only [List.any_eq_true, Bool.and_eq_true, Option.any_eq_true, CheckoutRow.isPaid,
    decide_eq_true_eq] at done
  obtain ⟨row, member, paid, last, ran, other, present, ⟨reference, also⟩, changed⟩ := done
  exact ⟨mid, last, run, run_reaches _ _ _ _ _ ran, row, member, paid, other, present, reference,
    also, changed⟩

end Payknot
