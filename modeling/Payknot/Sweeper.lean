import Payknot.Serving
import Payknot.Provenance
import Payknot.Mainnet

/-! Recovery by the sweep. A failed confirmation leaves its trace in `invoice` only; the
sweep looks for unpaid rows of `event_checkouts` with a signature, and no request ever
stores one. -/
namespace Payknot
open GoText Interleaving Machine

variable {p : Platform} {init cfg after : Service} {label : ServiceLabel}
variable {reference signature : String}

def Recovered (w : World) (reference signature : String) : Prop :=
  ∃ row ∈ w.checkouts, row.reference = reference ∧ row.status = .paid ∧ row.signature = some signature

def Unpaid (w : World) (reference : String) : Prop :=
  ∀ row ∈ w.checkouts, row.reference = reference → row.status ≠ .paid

def LeavesAlone (reference : String) (cfg : Service) (label : ServiceLabel) : Prop :=
  ∀ index thread (checkout : PaidCheckout),
    Performs cfg label index thread (.sql (.upsertPaidCheckout checkout)) ∨
      Performs cfg label index thread (.sql (.insertPaidCheckout checkout)) →
    checkout.reference ≠ reference

theorem unpaid_next (held : Provenance p init cfg) (unpaid : Unpaid cfg.world reference)
    (alone : LeavesAlone reference cfg label) (stepped : (machine p).next cfg label = some after) :
    Unpaid after.world reference := by
  intro row member of_reference
  rcases next_cases stepped with ⟨request, rfl, rfl⟩ | ⟨event, world, rfl, occurred, rfl⟩ |
    ⟨index, choice, thread, op, rest, reply, world, rfl, at_index, program, executed, same⟩
  · exact unpaid row member of_reference
  · have unchanged := occur_frame .checkouts occurred (by decide)
    rw [unchanged] at member
    exact unpaid row member of_reference
  · rw [same] at member
    have present := List.mem_of_getElem? at_index
    have performs : Performs cfg (.step index choice : ServiceLabel) index thread op :=
      ⟨⟨choice, rfl⟩, at_index, rest, program⟩
    rcases exec_checkouts executed with unchanged | ⟨checkout, data, rfl, _, _, written⟩ |
      ⟨checkout, data, issued, _, _, added⟩ | ⟨_, rfl, removed⟩ |
      ⟨id, _, sender, rfl, marked⟩ | ⟨id, rfl, marked⟩ | ⟨id, ownerEmail, rfl, removed⟩
    · rw [unchanged] at member
      exact unpaid row member of_reference
    · rw [written] at member
      obtain ⟨old, among, ⟨chosen, rfl⟩ | ⟨_, rfl⟩⟩ := mem_updateWhere member
      · have other := alone index thread checkout (.inl performs)
        rw [CheckoutRow.overwrite_reference] at of_reference
        exact absurd ((decide_eq_true_eq.mp chosen).symm.trans of_reference) other
      · exact unpaid _ among of_reference
    · rw [added] at member
      rcases List.mem_append.mp member with older | newest
      · exact unpaid row older of_reference
      · rw [List.mem_singleton] at newest
        subst newest
        have other : checkout.reference ≠ reference := by
          rcases issued with rfl | rfl
          · exact alone index thread checkout (.inl performs)
          · exact alone index thread checkout (.inr performs)
        exact absurd of_reference other
    · rw [removed] at member
      exact unpaid row (List.mem_filter.mp member).1 of_reference
    · -- The sweep has nothing to mark.
      obtain ⟨_, rows, listed, read, among, _⟩ := held.careful.issues present ⟨rest, program⟩
      exact absurd among (held.nothing_recoverable present read)
    · obtain ⟨_, rows, listed, read, among, _⟩ := held.careful.issues present ⟨rest, program⟩
      exact absurd among (held.nothing_recoverable present read)
    · rw [removed] at member
      exact unpaid row (List.mem_filter.mp member).1 of_reference

/-- No pass of the sweep ever makes a checkout paid: whatever has happened before and
however many passes there are, a reference stays unpaid until a request finalises it. -/
theorem sweep_recovers_nothing (fresh : Fresh init) {mid last : Service}
    (before : (machine p).Reaches anyStep init mid) (unpaid : Unpaid mid.world reference)
    (passes : (machine p).Reaches (LeavesAlone reference) mid last) (signature : String) :
    ¬ Recovered last.world reference signature := by
  have held := passes.invariant
    (fun cfg => Provenance p init cfg ∧ Unpaid cfg.world reference)
    ⟨provenance_reached fresh before, unpaid⟩ fun _ _ _ held alone stepped =>
      ⟨held.1.next stepped, unpaid_next held.1 held.2 alone stepped⟩
  rintro ⟨row, member, of_reference, paid, _⟩
  exact held.2 row member of_reference paid

/-- A confirmation of this live session has been refused by the verifier. -/
def ConfirmationFailed (cfg : Service) (reference signature : String) (amount : Int64) : Prop :=
  ∃ thread ∈ cfg.threads, ∃ text walletAddress reason,
    thread.request = .confirm ⟨.post, some ⟨reference, signature⟩⟩ ∧
    thread.log.Saw (.sql (.upsertErrorInvoice walletAddress reference signature amount reason)) (.ok ()) ∧
    thread.program = .ret (.responded 400 (.message text))

def VerifiesNow (p : Platform) (w : World) (reference signature : String) (amount : Int64)
    (merchant : String) : Prop :=
  ∃ sender after, Runs (Sound p)
    (verifyTransactionForMerchantWithSender p reference signature amount merchant) w (.accepted sender) after

def Swept (cfg : Service) : Prop :=
  ∃ thread ∈ cfg.threads, thread.request = .recoverErrorInvoices ∧ thread.program = .ret .swept

section Meetup
open Mainnet

def storesNone (cfg : Service) (label : ServiceLabel) : Bool :=
  match performed cfg label with
  | some (.sql (.upsertPaidCheckout _)) | some (.sql (.insertPaidCheckout _)) => false
  | _ => true

theorem leavesAlone_of_storesNone (stores_none : storesNone cfg label = true) :
    LeavesAlone reference cfg label := by
  intro index thread checkout performs
  rcases performs with upserts | inserts
  · simp [storesNone, upserts.performed] at stores_none
  · simp [storesNone, inserts.performed] at stores_none

def confirmationFailed (cfg : Service) (reference signature : String) (amount : Int64) : Bool :=
  cfg.threads.any fun
    | ⟨.confirm ⟨.post, some ⟨r, s⟩⟩, log, .ret (.responded 400 (.message _))⟩ =>
        r = reference && (s = signature && log.any fun
          | ⟨.sql (.upsertErrorInvoice _ r s n _), .ok _⟩ => r = reference && (s = signature && n = amount)
          | _ => false)
    | _ => false

theorem confirmationFailed_of {amount : Int64}
    (failed : confirmationFailed cfg reference signature amount = true) :
    ConfirmationFailed cfg reference signature amount := by
  obtain ⟨thread, member, failed⟩ := List.any_eq_true.mp failed
  split at failed
  · simp only [Bool.and_eq_true, decide_eq_true_eq, List.any_eq_true] at failed
    obtain ⟨rfl, rfl, entry, among, wrote⟩ := failed
    split at wrote
    · simp only [Bool.and_eq_true, decide_eq_true_eq] at wrote
      obtain ⟨rfl, rfl, rfl⟩ := wrote
      exact ⟨_, member, _, _, _, rfl, among, rfl⟩
    · cases wrote
  · cases failed

def verifiesNow (w : World) (reference signature : String) (amount : Int64) (merchant : String) : Bool :=
  ((verifyTransactionForMerchantWithSender platform reference signature amount merchant).play
    (machine platform).exec [⟨none, ""⟩, ⟨none, ""⟩] w).any fun
      | (.accepted _, _) => true
      | _ => false

theorem verifiesNow_of {w : World} {amount : Int64} {merchant : String}
    (verifies : verifiesNow w reference signature amount merchant = true) :
    VerifiesNow platform w reference signature amount merchant := by
  obtain ⟨⟨verdict, after⟩, played, accepted⟩ := (Option.any_eq_true _ _).mp verifies
  have ups : ∀ choice ∈ [(⟨none, ""⟩ : Choice), ⟨none, ""⟩], up choice := by simp [up]
  have runs := Program.play_runs (machine platform) ups played
  split at accepted
  · next sender _ same =>
    cases same
    exact ⟨sender, after, runs⟩
  · cases accepted

def hasSwept : ServiceThread → Bool
  | ⟨.recoverErrorInvoices, _, .ret .swept⟩ => true
  | _ => false

-- A confirmation sent before its payment has landed, and a pass a minute later.
theorem failed_then_swept :
    ∃ failed mid last : Service,
      (machine platform).Reaches anyStep (opening []) failed ∧
      ConfirmationFailed failed uuid1 signatureText1 1000000 ∧
      (machine platform).Reaches anyStep failed mid ∧
      mid.world.now < failed.world.now + 24 * 60 * minute ∧ (∃ event ∈ mid.world.events, event.id = meetup.id) ∧
      VerifiesNow platform mid.world uuid1 signatureText1 1000000 merchant ∧
      mid.world.checkouts = [] ∧
      (machine platform).Reaches (LeavesAlone uuid1) mid last ∧ Swept last ∧
      last.world.checkouts = [] := by
  obtain ⟨failed, before, done⟩ := run_meets (machine platform) (fun _ _ => true)
    (.arrive createInvoice :: steps 0 6 uuid1 ++ .arrive (confirm uuid1 signatureText1) :: steps 1 4 "")
    (opening []) (fun failed => confirmationFailed failed uuid1 signatureText1 1000000 &&
      ((machine platform).run (fun _ _ => true)
        [.event (.land (landed signature1 [uuid1])), .event (.tick 60000000000)] failed).any fun mid =>
          mid.world.now < failed.world.now + 24 * 60 * minute &&
          (mid.world.events.any (·.id = meetup.id) &&
          (verifiesNow mid.world uuid1 signatureText1 1000000 merchant &&
          (mid.world.checkouts.isEmpty &&
          ((machine platform).run storesNone (.arrive .recoverErrorInvoices :: steps 2 1 "") mid).any
            fun last => last.world.checkouts.isEmpty && last.threads.any hasSwept)))) (by decide +kernel)
  simp only [Bool.and_eq_true] at done
  obtain ⟨refused, done⟩ := done
  obtain ⟨mid, between, done⟩ := run_meets (machine platform) _ _ failed _ done
  simp only [Bool.and_eq_true, decide_eq_true_eq, List.any_eq_true, List.isEmpty_iff] at done
  obtain ⟨soon, event, verifies, empty, done⟩ := done
  obtain ⟨last, passes, done⟩ := run_meets (machine platform) _ _ mid _ done
  simp only [Bool.and_eq_true, List.any_eq_true, List.isEmpty_iff] at done
  obtain ⟨still, thread, member, swept⟩ := done
  refine ⟨failed, mid, last, before.any, confirmationFailed_of refused, between.any, soon, event,
    verifiesNow_of verifies, empty, passes.mono fun _ _ => leavesAlone_of_storesNone, ?_, still⟩
  unfold hasSwept at swept
  split at swept
  · exact ⟨_, member, rfl, rfl⟩
  · cases swept

/-- That pass, by the general result. -/
theorem sweep_recovers_nothing_meetup :
    ∃ mid last : Service, VerifiesNow platform mid.world uuid1 signatureText1 1000000 merchant ∧
      Swept last ∧ ¬ Recovered last.world uuid1 signatureText1 := by
  obtain ⟨failed, mid, last, before, _, between, _, _, verifies, empty, passes, swept, _⟩ :=
    failed_then_swept
  have unpaid : Unpaid mid.world uuid1 := by simp [Unpaid, empty]
  exact ⟨mid, last, verifies, swept,
    sweep_recovers_nothing (opening_fresh []) (before.trans between) unpaid passes signatureText1⟩

/-- A payment that lands after its confirmation has failed is not recovered. -/
theorem late_payment_not_recovered :
    ∃ failed mid last : Service,
      (machine platform).Reaches anyStep (opening []) failed ∧
      ConfirmationFailed failed uuid1 signatureText1 1000000 ∧
      (machine platform).Reaches anyStep failed mid ∧
      mid.world.now < failed.world.now + 24 * 60 * minute ∧ (∃ event ∈ mid.world.events, event.id = meetup.id) ∧
      VerifiesNow platform mid.world uuid1 signatureText1 1000000 merchant ∧
      Unpaid mid.world uuid1 ∧ (machine platform).Reaches (LeavesAlone uuid1) mid last ∧ Swept last ∧
      ¬ Recovered last.world uuid1 signatureText1 := by
  obtain ⟨failed, mid, last, before, refused, between, soon, event, verifies, empty, passes, swept,
    still⟩ := failed_then_swept
  refine ⟨failed, mid, last, before, refused, between, soon, event, verifies, ?_, passes, swept, ?_⟩
  · simp [Unpaid, empty]
  · simp [Recovered, still]

end Meetup

end Payknot
