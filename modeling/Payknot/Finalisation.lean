import Payknot.Tracking
import Payknot.Effects
import Payknot.Mainnet

/-! What finalisation leaves behind when one of its statements fails. Any statement may
fail, by a fault of its own or by a constraint that the contents violate. -/
namespace Payknot
open GoText Interleaving

abbrev performs (p : Platform) : Performing Reply World := (machine p).performing fun _ => True

def Op.looks : Op → Bool
  | .sql (.selectActiveEventBySlug _) | .sql (.selectActiveEventById _) | .sql (.eventSlugExists _)
  | .sql (.hasPaidDeposits _) | .sql (.paidEmailExists _ _ _) | .sql (.selectCheckout _)
  | .sql .selectRecoverable | .sql (.selectSession _) | .sql (.loadIdempotent _ _ _)
  | .redis (.hGetAll _) | .rpc _ | .now | .postWebhook _ _ _ => true
  | _ => false

theorem performs_looks {p : Platform} {op : Op} {w after : World} {reply : Reply op} (looks : op.looks = true)
    (performed : performs p op w reply after) : after = w := by
  obtain ⟨choice, _, executed⟩ := performed
  change exec p choice op w = some (reply, after) at executed
  cases op with
  | sql statement =>
      rcases exec_sql executed with ⟨_, _, same⟩ | ⟨value, _, ran⟩
      · exact same
      · cases statement with
        | selectSession id =>
            obtain ⟨_, _, ran⟩ := withSessionId_ok ran
            cases ran
            rfl
        | selectActiveEventBySlug | selectActiveEventById | eventSlugExists | hasPaidDeposits | paidEmailExists
        | selectCheckout | selectRecoverable | loadIdempotent =>
            cases ran
            rfl
        | _ => cases looks
  | redis command =>
      rcases exec_redis executed with ⟨_, _, same⟩ | ⟨value, _, ran⟩
      · exact same
      · cases command with
        | hGetAll key =>
            cases ran
            rfl
        | _ => cases looks
  | rpc call => exact (exec_rpc executed).1
  | newUUID => cases looks
  | now =>
      cases executed
      rfl
  | postWebhook event occurredAt payload =>
      cases executed
      rfl

theorem performs_frame {p : Platform} {op : Op} {w after : World} {reply : Reply op} (part : Part)
    (performed : performs p op w reply after) (quiet : part ∉ op.writes) : part.Same w after := by
  obtain ⟨choice, _, executed⟩ := performed
  exact exec_frame (p := p) part executed quiet

section Upserts
variable {p : Platform} {w after : World}

/-- The invoice of the reference is paid by this signature and carries no error. -/
def InvoicePaid (w : World) (reference signature : String) : Prop :=
  (∃ row ∈ w.invoices, row.reference = reference) ∧ ∀ row ∈ w.invoices, row.reference = reference →
    row.status = .paid ∧ row.signature = some signature ∧ row.errReason = none

theorem upsertInvoice_unchanged {walletAddress reference signature : String} {amount : Int64} :
    upsertInvoiceRows ⟨walletAddress, reference, amount, some signature, .paid, none⟩ w.invoices = w.invoices ↔
      InvoicePaid w reference signature := by
  unfold upsertInvoiceRows InvoicePaid
  by_cases conflict : w.invoices.any (·.reference = reference) = true
  · rw [if_pos conflict]
    simp only [List.any_eq_true, decide_eq_true_eq] at conflict
    unfold updateWhere
    constructor
    · intro same
      refine ⟨conflict, fun row member is_reference => ?_⟩
      have kept := List.map_inj_left.mp (same.trans (List.map_id _).symm) row member
      rw [if_pos (by simpa using is_reference)] at kept
      have status := congrArg InvoiceRow.status kept
      have signed := congrArg InvoiceRow.signature kept
      have errors := congrArg InvoiceRow.errReason kept
      exact ⟨status.symm, signed.symm, errors.symm⟩
    · rintro ⟨_, paid⟩
      refine (List.map_congr_left fun row member => ?_).trans (List.map_id _)
      by_cases is_reference : row.reference = reference
      · obtain ⟨status, signed, errors⟩ := paid row member is_reference
        rw [if_pos (by simpa using is_reference)]
        change { row with status := .paid, signature := some signature, errReason := none } = row
        rw [← status, ← signed, ← errors]
      · exact if_neg (by simpa using is_reference)
  · rw [if_neg conflict]
    simp only [List.any_eq_true, decide_eq_true_eq] at conflict
    constructor
    · intro same
      have longer := congrArg List.length same
      simp at longer
    · rintro ⟨some_row, _⟩
      exact absurd some_row conflict

theorem performs_upsertPaidInvoice {walletAddress reference signature : String} {amount : Int64}
    {reply : Except Fault Unit}
    (performed : performs p (.sql (.upsertPaidInvoice walletAddress reference signature amount)) w reply after) :
    (∃ fault, reply = .error fault ∧ after = w) ∨
      reply = .ok () ∧ after = w.upsertInvoice ⟨walletAddress, reference, amount, some signature, .paid, none⟩ := by
  obtain ⟨choice, _, executed⟩ := performed
  rcases exec_sql executed with failed | ⟨value, same, ran⟩
  · exact .inl failed
  · cases ran
    exact .inr ⟨same, rfl⟩

theorem performs_upsertPaidCheckout {checkout : PaidCheckout} {reply : Except Fault Unit}
    (performed : performs p (.sql (.upsertPaidCheckout checkout)) w reply after) :
    (∃ fault, reply = .error fault ∧ after = w) ∨ reply = .ok () := by
  obtain ⟨choice, _, executed⟩ := performed
  rcases exec_sql executed with failed | ⟨value, same, _⟩
  · exact .inl failed
  · exact .inr same

end Upserts

section Finalise
variable {p : Platform} {w after : World} {reference signature : String} {hash : InvoiceHash} {amount : Int64}
variable {log later : Log Reply}

theorem along_checkEmail_looks (eventID : Int64) (otherThan : Option String) (data : Option Object)
    (log : Log Reply) : (checkEmail p eventID otherThan data).Along (fun _ op => op.looks = true)
      (fun _ _ => True) log := by
  unfold checkEmail sql
  dsimp only
  split
  · simp
  · rw [Program.along_perform_bind]
    refine ⟨rfl, fun reply => ?_⟩
    rcases reply with _ | _ | _ <;> simp

def CheckoutFailed (log : Log Reply) : Prop :=
  ∃ checkout fault, log.Saw (.sql (.upsertPaidCheckout checkout)) (.error fault)

def paidInvoice (reference signature : String) (hash : InvoiceHash) (amount : Int64) : InvoiceRow :=
  ⟨orDefault hash.walletAddress "unknown_wallet", reference, amount, some signature, .paid, none⟩

/-- An error is the second upsert's and comes after the first one's effect, or nothing has
changed. -/
theorem tracks_finalizePaidCheckout (w : World) :
    (finalizePaidCheckout p reference signature hash amount).Tracks (performs p)
      (fun answer after later => ∀ text, answer = .error text →
        (CheckoutFailed later ∧ after = w.upsertInvoice (paidInvoice reference signature hash amount)) ∨
          (¬ CheckoutFailed later ∧ after = w)) w [] := by
  unfold finalizePaidCheckout
  cases parsed : parseInt hash.eventId with
  | error text =>
      rw [Program.tracks_pure]
      intro _ _
      exact .inr ⟨by simp [CheckoutFailed, Log.Saw], rfl⟩
  | ok eventID =>
      refine (Program.Along.tracks (fun w after => after = w) (along_checkEmail_looks (p := p) _ _ _ [])
        (fun _ => rfl) (fun first rest => rest.trans first) fun _ _ _ _ => performs_looks).sequence ?_
      rintro checked middle seen ⟨rfl, _, before, rfl, looked⟩
      have no_upsert : ¬ CheckoutFailed (before ++ []) := by
        rintro ⟨checkout, fault, saw⟩
        rw [List.append_nil] at saw
        cases looked _ saw
      cases checked with
      | error text =>
          rw [Program.tracks_pure]
          exact fun _ _ => .inr ⟨no_upsert, rfl⟩
      | ok _ =>
          unfold sql
          rw [Program.tracks_perform_bind]
          intro reply between performed
          rcases performs_upsertPaidInvoice performed with ⟨fault, rfl, rfl⟩ | ⟨rfl, rfl⟩
          · rw [Program.tracks_pure]
            refine fun _ _ => .inr ⟨?_, rfl⟩
            rintro ⟨checkout, other, saw⟩
            rcases List.mem_cons.mp saw with here | older
            · cases here
            · exact no_upsert ⟨checkout, other, older⟩
          · dsimp only
            rw [Program.tracks_perform_bind]
            intro reply last performed'
            rcases performs_upsertPaidCheckout performed' with ⟨fault, rfl, rfl⟩ | rfl
            · rw [Program.tracks_pure]
              exact fun _ _ => .inl ⟨⟨_, fault, List.mem_cons_self⟩, rfl⟩
            · rw [Program.tracks_pure]
              rintro text ⟨⟩

/-- Finalisation that answers an error has changed nothing, unless it was the checkout's
upsert that failed; then the invoice alone is stored as paid, which changes it unless it
was paid by this signature before. -/
theorem finalize_error_leaves {text : String}
    (run : Traces (performs p) (finalizePaidCheckout p reference signature hash amount) w [] (.error text) after later) :
    after.checkouts = w.checkouts ∧ (¬ CheckoutFailed later → after = w) ∧
      (CheckoutFailed later → after = w.upsertInvoice (paidInvoice reference signature hash amount)) ∧
      (after.invoices = w.invoices ↔ (CheckoutFailed later → InvoicePaid w reference signature)) := by
  rcases (tracks_finalizePaidCheckout w).traces run text rfl with ⟨failed, rfl⟩ | ⟨none_failed, rfl⟩
  · refine ⟨rfl, fun never => absurd failed never, fun _ => rfl, ?_⟩
    rw [imp_iff_right failed]
    exact upsertInvoice_unchanged
  · exact ⟨rfl, fun _ => rfl, fun failed => absurd failed none_failed,
      fun _ failed => absurd failed none_failed, fun _ => rfl⟩

end Finalise

section Meetup
open Mainnet

def withoutEvent : World := { (opening []).world with events := [] }

def settlement : Handler (Except String Unit) :=
  finalizePaidCheckout platform uuid1 signatureText1
    (invoiceHash platform meetup payer "wallet" (some participant)) 1000000

def keptInvoice : Option (Except String Unit × World × Log Reply) → Bool
  | some (.error _, after, _) => after.invoices.length == 1
  | _ => false

-- The checkout's foreign key refuses the second upsert; the first one stays.
theorem settlement_refused : ∃ text after later,
    Traces (performs platform) settlement withoutEvent [] (.error text) after later ∧ after.invoices.length = 1 := by
  have played : keptInvoice (settlement.playLogged (exec platform) (List.replicate 3 ⟨none, ""⟩) withoutEvent []) =
      true := by decide +kernel
  unfold keptInvoice at played
  split at played
  · next text after later ran =>
    exact ⟨text, after, later, Program.playLogged_traces (machine platform) (fun _ _ => trivial) ran,
      by simpa using played⟩
  · cases played

/-- It was the checkout's upsert that failed there. -/
theorem finalize_error_leaves_meetup : ∃ text after later,
    Traces (performs platform) settlement withoutEvent [] (.error text) after later ∧ CheckoutFailed later ∧
    after = withoutEvent.upsertInvoice (paidInvoice uuid1 signatureText1
      (invoiceHash platform meetup payer "wallet" (some participant)) 1000000) := by
  obtain ⟨text, after, later, traced, stored⟩ := settlement_refused
  obtain ⟨_, unless_failed, if_failed, _⟩ := finalize_error_leaves traced
  have failed : CheckoutFailed later := by
    by_contra never
    rw [unless_failed never] at stored
    cases stored
  exact ⟨text, after, later, traced, failed, if_failed failed⟩

/-- An error that leaves a paid invoice behind. -/
theorem invoice_without_checkout : ∃ (p : Platform) (w after : World) (later : Log Reply) (text reference signature : String)
    (hash : InvoiceHash) (amount : Int64),
    Traces (performs p) (finalizePaidCheckout p reference signature hash amount) w [] (.error text) after later ∧
    ¬ (after.invoices = w.invoices ∧ after.checkouts = w.checkouts) := by
  obtain ⟨text, after, later, traced, stored⟩ := settlement_refused
  refine ⟨_, _, after, later, text, _, _, _, _, traced, ?_⟩
  rintro ⟨same, _⟩
  rw [same] at stored
  cases stored

end Meetup

end Payknot
