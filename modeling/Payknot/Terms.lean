import Payknot.Receipts
import Payknot.EventLock

/-! What a deposit was charged. A session takes the event's amount and merchant wallet
along when it is created, and the event may be edited until its first deposit; from
then on its row stays as it is. -/
namespace Payknot
open GoText Interleaving Machine

variable {p : Platform} {init cfg after : Service} {label : ServiceLabel}

/-- A statement of a request has changed the event's row, or deleted it. -/
def Edited (cfg : Service) (id : Int64) : Prop :=
  ∃ thread ∈ cfg.threads, ∃ ownerEmail affected, 0 < affected ∧
    ((∃ columns, thread.log.Saw (.sql (.updateEvent id ownerEmail columns)) (.ok affected)) ∨
      thread.log.Saw (.sql (.deleteEvent id ownerEmail)) (.ok affected))

theorem Edited.next {id : Int64} (edited : Edited cfg id)
    (stepped : (machine p).next cfg label = some after) : Edited after id := by
  obtain ⟨thread, member, ownerEmail, affected, some_row, saw⟩ := edited
  obtain ⟨current, present, _, grown⟩ := next_thread stepped member
  refine ⟨current, present, ownerEmail, affected, some_row, ?_⟩
  rcases saw with ⟨columns, updated⟩ | deleted
  · exact .inl ⟨columns, updated.mono grown⟩
  · exact .inr (deleted.mono grown)

-- What an owner's own statement hits is counted.
theorem ownedEvents_pos {event : EventRow} {id : Int64} {ownerEmail : String} (member : event ∈ cfg.world.events)
    (same : event.id = id) (owner : event.ownerEmail = ownerEmail) : 0 < ownedEvents cfg.world id ownerEmail :=
  List.countP_pos_iff.mpr ⟨event, member, by simp [same, owner]⟩

-- A version of an event's row goes only by an edit that reaches the row.
theorem version_next {event : EventRow}
    (version : event ∈ cfg.world.events ∨ Edited cfg event.id)
    (stepped : (machine p).next cfg label = some after) :
    event ∈ after.world.events ∨ Edited after event.id := by
  rcases version with member | edited
  · rcases next_cases stepped with ⟨request, rfl, rfl⟩ | ⟨occurring, world, rfl, occurred, rfl⟩ |
      ⟨index, choice, thread, op, rest, reply, world, rfl, at_index, program, executed, same⟩
    · exact .inl member
    · have unchanged := occur_frame .events occurred (by decide)
      rw [unchanged]
      exact .inl member
    · have moved : thread.resumed op reply rest ∈ after.threads := by
        rw [same]
        exact List.mem_of_getElem? (List.getElem?_set_self (List.getElem?_eq_some_iff.mp at_index).1)
      rcases exec_events executed with unchanged | ⟨slug, owner, columns, rfl, added, _⟩ |
        ⟨id, owner, columns, rfl, updated⟩ | ⟨id, owner, rfl, hit, removed⟩
      · rw [same, unchanged]
        exact .inl member
      · rw [same, added]
        exact .inl (List.mem_append_left _ member)
      · rcases exec_sql executed with ⟨_, _, unchanged⟩ | ⟨affected, rfl, ran⟩
        · rw [same, unchanged]
          exact .inl member
        · rcases updateWhere_mem (fun row => row.id = id && row.ownerEmail = owner)
            (fun row => { row with columns := columns }) member with ⟨chosen, _⟩ | ⟨_, kept⟩
          · -- The statement hits the row, so it counts it.
            simp only [Bool.and_eq_true, decide_eq_true_eq] at chosen
            obtain ⟨rfl, owned⟩ := chosen
            have counted : ownedEvents cfg.world event.id owner = affected := (Prod.mk.inj (Except.ok.inj ran)).1
            have some_row : 0 < affected := counted ▸ ownedEvents_pos member rfl owned
            exact .inr ⟨thread.resumed _ _ rest, moved, owner, affected, some_row, .inl ⟨columns, List.mem_cons_self⟩⟩
          · rw [same, updated]
            exact .inl kept
      · rcases exec_sql executed with ⟨_, _, unchanged⟩ | ⟨affected, rfl, ran⟩
        · rw [same, unchanged]
          exact .inl member
        · by_cases here : event.id = id
          · subst here
            have counted : ownedEvents cfg.world event.id owner = affected := by
              simp only [Sql.run, hit, if_false, Except.ok.injEq, Prod.mk.injEq] at ran
              exact ran.1
            have some_row : 0 < affected := counted ▸ Nat.pos_of_ne_zero hit
            exact .inr ⟨thread.resumed _ _ rest, moved, owner, affected, some_row, .inr List.mem_cons_self⟩
          · rw [same, removed]
            exact .inl (List.mem_filter.mpr ⟨member, by simpa using here⟩)
  · exact .inr (edited.next stepped)

theorem HadEvent.version {event : EventRow} (had : HadEvent p init cfg event) :
    event ∈ cfg.world.events ∨ Edited cfg event.id := by
  obtain ⟨earlier, _, since, member⟩ := had
  exact since.invariant (fun cfg => event ∈ cfg.world.events ∨ Edited cfg event.id) (.inl member)
    fun _ _ _ version _ stepped => version_next version stepped

/-- After complete requests every deposit was charged, and verified against, the terms
its event had when the payment was set up; they are the event's terms still unless it
was edited; and an event with a deposit is not edited any more. -/
theorem deposits_match_terms (fresh : Fresh init)
    (run : (machine p).Reaches (fun cfg label => oneAtATime cfg label = true) init cfg)
    (row : CheckoutRow) (member : row ∈ cfg.world.checkouts) (paid : row.status = .paid) :
    (∃ thread ∈ cfg.threads, ∃ event merchant signature tx,
      Receipt p init cfg row thread event merchant signature tx ∧
        (event ∈ cfg.world.events ∨ Edited cfg row.eventId)) ∧
    ∀ last, (machine p).Reaches (fun cfg label => oneAtATime cfg label = true) cfg last →
      ∀ event ∈ cfg.world.events, event.id = row.eventId → event ∈ last.world.events := by
  constructor
  · obtain ⟨thread, present, event, merchant, signature, tx, receipt⟩ :=
      (receipted_reached fresh run.any).2 row member
    refine ⟨thread, present, event, merchant, signature, tx, receipt, ?_⟩
    rw [receipt.eventId]
    exact receipt.had.version
  · intro last since event among same
    obtain ⟨before, one⟩ := checksHold_reached (by simp [AtMostOneBusy, fresh.threads]) run
    have frozen := frozen_reached (locked_reached fresh.threads before)
      (checksHold_reached one since).1 member paid
    exact frozen.1 event among same

theorem deposits_match_terms_meetup :
    ∃ cfg : Service, ∃ row ∈ cfg.world.checkouts, row.status = .paid ∧
      (∃ thread ∈ cfg.threads, ∃ event merchant signature tx,
        Receipt Mainnet.platform
          (Mainnet.opening [Mainnet.landed Mainnet.signature1 [Mainnet.uuid1]]) cfg row thread event
          merchant signature tx ∧ (event ∈ cfg.world.events ∨ Edited cfg row.eventId)) ∧
      ∀ last, (machine Mainnet.platform).Reaches (fun cfg label => oneAtATime cfg label = true) cfg
        last → ∀ event ∈ cfg.world.events, event.id = row.eventId → event ∈ last.world.events := by
  obtain ⟨cfg, run, row, member, paid, _⟩ := Mainnet.confirmed_deposit
  exact ⟨cfg, row, member, paid, deposits_match_terms (Mainnet.opening_fresh _)
    (run.mono fun _ _ meets => meets.1) row member paid⟩

/-- A session is created for 1 USDC, the event raised to 2 USDC, and the session then
confirmed for the 1 USDC it asked for. -/
theorem deposit_below_terms :
    ∃ cfg : Service, (machine Mainnet.platform).Reaches
        (fun cfg label => oneAtATime cfg label = true)
        (Mainnet.opening [Mainnet.landed Mainnet.signature1 [Mainnet.uuid1]]) cfg ∧
      idle cfg = true ∧ ∃ row ∈ cfg.world.checkouts, row.status = .paid ∧
        ∃ event ∈ cfg.world.events, event.id = row.eventId ∧
          row.amount ≠ event.columns.amountUSDC := by
  obtain ⟨cfg, run, done⟩ := run_meets (machine Mainnet.platform) oneAtATime
    (.arrive Mainnet.createInvoice :: Mainnet.steps 0 6 Mainnet.uuid1 ++
      .arrive Mainnet.raiseAmount :: Mainnet.steps 1 2 "" ++
      .arrive (Mainnet.confirm Mainnet.uuid1 Mainnet.signatureText1) :: Mainnet.steps 2 8 "")
    (Mainnet.opening [Mainnet.landed Mainnet.signature1 [Mainnet.uuid1]])
    (fun cfg => idle cfg && cfg.world.checkouts.any fun row => row.isPaid &&
      cfg.world.events.any fun event => event.id = row.eventId &&
        row.amount ≠ event.columns.amountUSDC) (by decide +kernel)
  simp only [Bool.and_eq_true, List.any_eq_true, CheckoutRow.isPaid, decide_eq_true_eq] at done
  exact ⟨cfg, run, done⟩

end Payknot
