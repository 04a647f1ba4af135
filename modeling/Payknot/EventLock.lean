import Payknot.History
import Payknot.Mainnet

/-! An event with a deposit is frozen: `updateEvent` and `deleteEvent` refuse with "event
cannot be edited (deleted) after at least one successful deposit". The check and the
write are two statements, so what is proved is exactly what keeps them together. -/
namespace Payknot
open GoText Interleaving Machine

variable {p : Platform} {init cfg after : Service} {label : ServiceLabel}

def Deposits (w : World) (id : Int64) : Op → Prop
  | .sql (.upsertPaidCheckout checkout) =>
      (∃ row ∈ w.checkouts, row.reference = checkout.reference ∧ row.eventId = id) ∨
        ((∀ row ∈ w.checkouts, row.reference ≠ checkout.reference) ∧ checkout.eventId = id)
  | .sql (.insertPaidCheckout checkout) => checkout.eventId = id
  | .sql (.markCheckoutPaid row _ _) => ∃ stored ∈ w.checkouts, stored.id = row ∧ stored.eventId = id
  | _ => False

/-- The thread has seen no deposit and is about to change or delete the event. -/
def PastCheck (thread : ServiceThread) (id : Int64) : Prop :=
  (∃ ownerEmail columns, thread.Issues (.sql (.updateEvent id ownerEmail columns))) ∨
    ∃ ownerEmail, thread.Issues (.sql (.deleteEvent id ownerEmail))

/-- Nobody stands between the deposit check and the write of an event when a checkout
of that event is marked paid. -/
def ChecksHold (cfg : Service) (label : ServiceLabel) : Prop :=
  ∀ index thread op id, Performs cfg label index thread op → Deposits cfg.world id op →
    Others cfg index fun other => ¬ PastCheck other id

/-- Whoever is past the check of an event is right: it has no deposit. -/
def Locked (cfg : Service) : Prop :=
  ∀ thread ∈ cfg.threads, ∀ id, PastCheck thread id → paidRow id cfg.world.checkouts = false

theorem paidRow_iff {id : Int64} {checkouts : List CheckoutRow} :
    paidRow id checkouts = true ↔ ∃ row ∈ checkouts, row.eventId = id ∧ row.status = .paid := by
  simp [paidRow, CheckoutRow.isPaid]

-- A deposit the event did not have is one the operation makes.
theorem deposits_of_paidRow {choice : Choice} {op : Op} {w later : World} {reply : Reply op}
    (executed : exec p choice op w = some (reply, later)) {id : Int64}
    (deposited : paidRow id later.checkouts = true) :
    paidRow id w.checkouts = true ∨ Deposits w id op := by
  obtain ⟨row, found, rfl, paid⟩ := paidRow_iff.mp deposited
  have had {old : CheckoutRow} (member : old ∈ w.checkouts) (same : old.eventId = row.eventId)
      (paid : old.status = .paid) : paidRow row.eventId w.checkouts = true ∨ Deposits w row.eventId op :=
    .inl (paidRow_iff.mpr ⟨old, member, same, paid⟩)
  rcases exec_checkouts executed with unchanged | ⟨checkout, data, rfl, _, _, written⟩ |
    ⟨checkout, data, issued, _, fresh, added⟩ | ⟨reference, rfl, removed⟩ |
    ⟨rowId, signature, sender, rfl, marked⟩ | ⟨rowId, rfl, marked⟩ | ⟨event, ownerEmail, rfl, removed⟩
  · rw [unchanged] at found
    exact had found rfl paid
  · rw [written] at found
    obtain ⟨old, among, ⟨chosen, same⟩ | ⟨_, same⟩⟩ := mem_updateWhere found
    · refine .inr (.inl ⟨old, among, by simpa using chosen, ?_⟩)
      rw [same]
      rfl
    · subst same
      exact had among rfl paid
  · rw [added] at found
    rcases List.mem_append.mp found with older | newest
    · exact had older rfl paid
    · rw [List.mem_singleton] at newest
      subst newest
      rcases issued with rfl | rfl
      · exact .inr (.inr ⟨fresh, rfl⟩)
      · exact .inr rfl
  · rw [removed] at found
    exact had (List.mem_filter.mp found).1 rfl paid
  · rw [marked] at found
    obtain ⟨old, among, ⟨chosen, same⟩ | ⟨_, same⟩⟩ := mem_updateWhere found
    · refine .inr ⟨old, among, by simpa using chosen, ?_⟩
      rw [same]
      rfl
    · subst same
      exact had among rfl paid
  · rw [marked] at found
    obtain ⟨old, among, ⟨chosen, same⟩ | ⟨_, same⟩⟩ := mem_updateWhere found
    · rw [same] at paid
      cases paid
    · subst same
      exact had among rfl paid
  · rw [removed] at found
    exact had (List.mem_filter.mp found).1 rfl paid

theorem PastCheck.checked {thread : ServiceThread} {id : Int64} (past : PastCheck thread id)
    (warranted : Warranted p cfg) (member : thread ∈ cfg.threads) :
    ∃ earlier, thread.log = ⟨.sql (.hasPaidDeposits id), .ok false⟩ :: earlier := by
  rcases past with ⟨ownerEmail, columns, suspended⟩ | ⟨ownerEmail, suspended⟩
  · exact (warranted.issues member suspended).2
  · exact (warranted.issues member suspended).2

theorem locked_next (warranted : Warranted p after) (locked : Locked cfg) (holds : ChecksHold cfg label)
    (stepped : (machine p).next cfg label = some after) : Locked after := by
  intro current member id past
  obtain ⟨at_log, logged⟩ := past.checked warranted member
  obtain ⟨index, found⟩ := List.mem_iff_getElem?.mp member
  rcases thread_after stepped found with old | ⟨request, _, rfl, _⟩ |
    ⟨choice, thread, op, rest, reply, rfl, at_index, program, executed, rfl⟩
  · have before := locked current (List.mem_of_getElem? old) id past
    rcases next_cases stepped with ⟨request, rfl, rfl⟩ | ⟨event, world, rfl, occurred, rfl⟩ |
      ⟨moved, choice, thread, op, rest, reply, world, rfl, at_moved, program, executed, same⟩
    · exact before
    · have unchanged := occur_frame .checkouts occurred (by decide)
      rw [unchanged]
      exact before
    · -- The stepping thread is another one: it may deposit only into other events.
      have elsewhere := old_elsewhere stepped old found
      rw [Bool.eq_false_iff]
      intro deposited
      rw [same] at deposited
      rcases deposits_of_paidRow executed deposited with already | deposits
      · rw [before] at already
        cases already
      · exact holds moved thread op id ⟨⟨choice, rfl⟩, at_moved, rest, program⟩ deposits index current
          elsewhere old past
  · cases logged
  · -- The thread has just asked, and the answer is still true.
    simp only [Thread.resumed, List.cons.injEq, Entry.mk.injEq] at logged
    obtain ⟨⟨rfl, answered⟩, _⟩ := logged
    have answer := eq_of_heq answered
    subst answer
    rcases exec_sql executed with ⟨_, wrong, _⟩ | ⟨value, same, ran⟩
    · cases wrong
    · cases same
      simp only [Sql.run, Except.ok.injEq, Prod.mk.injEq] at ran
      rw [← ran.2]
      exact ran.1

/-- The receipt is still there: the same checkout of the same event, still paid. -/
def StillPaid (checkouts : List CheckoutRow) (row : CheckoutRow) : Prop :=
  ∃ kept ∈ checkouts, kept.id = row.id ∧ kept.reference = row.reference ∧
    kept.eventId = row.eventId ∧ kept.status = .paid

-- A thread that changes or deletes an event changes one without deposits.
theorem Locked.elsewhere (locked : Locked cfg) {row : CheckoutRow}
    (paid : StillPaid cfg.world.checkouts row) {thread : ServiceThread} (member : thread ∈ cfg.threads)
    {id : Int64} (past : PastCheck thread id) : row.eventId ≠ id := by
  rintro rfl
  obtain ⟨kept, among, _, _, same, is_paid⟩ := paid
  have deposited := paidRow_iff.mpr ⟨kept, among, same, is_paid⟩
  rw [locked thread member _ past] at deposited
  cases deposited

-- The event row and the receipt one step later.
theorem frozen_next (locked : Locked cfg) {row : CheckoutRow}
    (paid : StillPaid cfg.world.checkouts row) (stepped : (machine p).next cfg label = some after) :
    (∀ event ∈ cfg.world.events, event.id = row.eventId → event ∈ after.world.events) ∧
      StillPaid after.world.checkouts row := by
  rcases next_cases stepped with ⟨request, rfl, rfl⟩ | ⟨event, world, rfl, occurred, rfl⟩ |
    ⟨index, choice, thread, op, rest, reply, world, rfl, at_index, program, executed, same⟩
  · exact ⟨fun event member _ => member, paid⟩
  · constructor
    · have unchanged := occur_frame .events occurred (by decide)
      intro event member _
      rw [unchanged]
      exact member
    · have unchanged := occur_frame .checkouts occurred (by decide)
      rw [unchanged]
      exact paid
  · have present := List.mem_of_getElem? at_index
    rw [same]
    constructor
    · intro event member of_event
      rcases exec_events executed with unchanged | ⟨slug, owner, columns, rfl, added, _⟩ |
        ⟨id, owner, columns, rfl, updated⟩ | ⟨id, owner, rfl, _, removed⟩
      · rw [unchanged]
        exact member
      · rw [added]
        exact List.mem_append_left _ member
      · have other := locked.elsewhere paid present (.inl ⟨owner, columns, rest, program⟩)
        rw [updated]
        rcases updateWhere_mem (fun row => row.id = id && row.ownerEmail = owner)
          (fun row => { row with columns := columns }) member with ⟨chosen, _⟩ | ⟨_, kept⟩
        · simp only [Bool.and_eq_true, decide_eq_true_eq] at chosen
          exact absurd (of_event.symm.trans chosen.1) other
        · exact kept
      · have other := locked.elsewhere paid present (.inr ⟨owner, rest, program⟩)
        rw [removed]
        refine List.mem_filter.mpr ⟨member, ?_⟩
        rw [of_event]
        simpa using other
    · obtain ⟨kept, among, same_id, reference, eventId, is_paid⟩ := paid
      rcases checkout_fate executed among with stays | ⟨checkout, data, rfl, _, written⟩ |
        ⟨signature, sender, rfl, marked⟩ | ⟨owner, rfl⟩ | unpaid
      · exact ⟨kept, stays, same_id, reference, eventId, is_paid⟩
      · exact ⟨_, written, same_id, reference, eventId, rfl⟩
      · exact ⟨_, marked, same_id, reference, eventId, rfl⟩
      · have other := locked.elsewhere ⟨kept, among, same_id, reference, eventId, is_paid⟩ present
          (.inr ⟨owner, rest, program⟩)
        exact absurd eventId.symm other
      · exact absurd is_paid unpaid

theorem locked_reached (start : init.threads = []) {last : Service}
    (run : (machine p).Reaches ChecksHold init last) : Warranted p last ∧ Locked last :=
  run.invariant (fun cfg => Warranted p cfg ∧ Locked cfg)
    ⟨warranted_start start, by simp [Locked, start]⟩ fun _ _ _ held holds stepped => by
      have warranted := warranted_next held.1 stepped
      exact ⟨warranted, locked_next warranted held.2 holds stepped⟩

theorem frozen_reached {mid last : Service} (held : Warranted p mid ∧ Locked mid)
    (run : (machine p).Reaches ChecksHold mid last)
    {row : CheckoutRow} (member : row ∈ mid.world.checkouts) (paid : row.status = .paid) :
    (∀ event ∈ mid.world.events, event.id = row.eventId → event ∈ last.world.events) ∧
      StillPaid last.world.checkouts row := by
  have frozen := run.invariant
    (fun cfg => (Warranted p cfg ∧ Locked cfg) ∧
      (∀ event ∈ mid.world.events, event.id = row.eventId → event ∈ cfg.world.events) ∧
        StillPaid cfg.world.checkouts row)
    ⟨held, fun _ present _ => present, row, member, rfl, rfl, rfl, paid⟩
    fun _ _ _ held holds stepped => by
      have warranted := warranted_next held.1.1 stepped
      have next := frozen_next held.1.2 held.2.2 stepped
      refine ⟨⟨warranted, locked_next warranted held.1.2 holds stepped⟩, ?_, next.2⟩
      exact fun event present same => next.1 event (held.2.1 event present same) same
  exact frozen.2

/-- As long as no deposit is recorded between an event's check and its write, an event
with a deposit keeps its row as it is and the deposit stays, whatever the interleaving
and whatever the stores held at the start. -/
theorem deposit_freezes_event (start : init.threads = [])
    {mid last : Service} (before : (machine p).Reaches ChecksHold init mid)
    (since : (machine p).Reaches ChecksHold mid last)
    {row : CheckoutRow} (member : row ∈ mid.world.checkouts) (paid : row.status = .paid) :
    (∀ event ∈ mid.world.events, event.id = row.eventId → event ∈ last.world.events) ∧
      StillPaid last.world.checkouts row :=
  frozen_reached (locked_reached start before) since member paid

-- Complete requests never come between a check and its write.
theorem checksHold_alone (one : AtMostOneBusy cfg) : ChecksHold cfg label := by
  intro index thread op id performs _ j other elsewhere at_j past
  have ended := one.others performs j other elsewhere at_j
  rcases past with ⟨_, _, suspended⟩ | ⟨_, suspended⟩
  · exact Thread.not_issues ended _ suspended
  · exact Thread.not_issues ended _ suspended

theorem checksHold_reached {first last : Service} (one : AtMostOneBusy first)
    (run : (machine p).Reaches (fun cfg label => oneAtATime cfg label = true) first last) :
    (machine p).Reaches ChecksHold first last ∧ AtMostOneBusy last := by
  have waits : (machine p).Reaches (fun cfg label => oneAtATime cfg label = true ∧ True) first last :=
    run.mono fun _ _ waits => ⟨waits, trivial⟩
  have alone := waits.alone one
  exact ⟨alone.1.mono fun _ _ meets => checksHold_alone meets.1, alone.2⟩

theorem deposit_freezes_event_meetup :
    ∃ mid last : Service, mid.world.now < last.world.now ∧
      ∃ row ∈ mid.world.checkouts, row.status = .paid ∧
        (∀ event ∈ mid.world.events, event.id = row.eventId → event ∈ last.world.events) ∧
        StillPaid last.world.checkouts row := by
  obtain ⟨cfg, run, row, member, paid, _⟩ := Mainnet.confirmed_deposit
  obtain ⟨before, one⟩ := checksHold_reached (by simp [AtMostOneBusy, Mainnet.opening])
    (run.mono fun _ _ meets => meets.1)
  have stepped : (machine Mainnet.platform).next cfg (.event (.tick 1)) = some _ := rfl
  have since := (Reaches.refl cfg).tail _ (checksHold_alone one) stepped
  refine ⟨cfg, _, ?_, row, member, paid, deposit_freezes_event rfl before since member paid⟩
  exact Int.lt_add_one_of_le le_rfl

/-- A request to delete the event has just seen no deposit when a payment is confirmed;
its DELETE then takes the event and the paid checkout with it. -/
theorem deposit_deleted :
    ∃ mid last : Service,
      (machine Mainnet.platform).Reaches anyStep
        (Mainnet.opening [Mainnet.landed Mainnet.signature1 [Mainnet.uuid1]]) mid ∧
      (machine Mainnet.platform).Reaches anyStep mid last ∧
      (∃ row ∈ mid.world.checkouts, row.status = .paid ∧
        ∃ event ∈ mid.world.events, event.id = row.eventId) ∧
      last.world.events = [] ∧ last.world.checkouts = [] := by
  obtain ⟨mid, run, done⟩ := run_meets (machine Mainnet.platform) (fun _ _ => true)
    (.arrive Mainnet.createInvoice :: Mainnet.steps 0 6 Mainnet.uuid1 ++
      .arrive Mainnet.deleteEvent :: Mainnet.steps 1 1 "" ++
      .arrive (Mainnet.confirm Mainnet.uuid1 Mainnet.signatureText1) :: Mainnet.steps 2 8 "")
    (Mainnet.opening [Mainnet.landed Mainnet.signature1 [Mainnet.uuid1]])
    (fun mid => (mid.world.checkouts.any fun row => row.isPaid &&
        mid.world.events.any (·.id = row.eventId)) &&
      ((machine Mainnet.platform).next mid (.step 1 ⟨none, ""⟩)).any fun last =>
        last.world.events.isEmpty && last.world.checkouts.isEmpty) (by decide +kernel)
  simp only [Bool.and_eq_true, List.any_eq_true, Option.any_eq_true, CheckoutRow.isPaid,
    decide_eq_true_eq, List.isEmpty_iff] at done
  obtain ⟨⟨row, member, paid, event⟩, last, stepped, gone⟩ := done
  exact ⟨mid, last, run.any, (Reaches.refl mid).tail _ trivial stepped, ⟨row, member, paid, event⟩,
    gone⟩

end Payknot
