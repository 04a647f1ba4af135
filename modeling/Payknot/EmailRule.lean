import Payknot.Receipts
import Mathlib.Data.List.Pairwise

/-! "Bound rule: 1 email = 1 paid transaction per event." A finaliser asks whether the
e-mail is taken in one statement and writes the paid checkout two statements later. -/
namespace Payknot
open GoText Interleaving Machine

variable {p : Platform} {init cfg after : Service} {label : ServiceLabel}
variable {eventId : Int64} {email : String}

/-- A paid deposit of the event by that e-mail, as the rule's query sees it. -/
def Deposited (p : Platform) (eventId : Int64) (email : String) (row : CheckoutRow) : Prop :=
  row.eventId = eventId ∧ row.status = .paid ∧ row.emailIs p email = true

def OneDeposit (p : Platform) (eventId : Int64) (email : String) (checkouts : List CheckoutRow) :
    Prop :=
  checkouts.Pairwise fun row other =>
    ¬ (Deposited p eventId email row ∧ Deposited p eventId email other)

instance (row : CheckoutRow) : Decidable (Deposited p eventId email row) :=
  inferInstanceAs (Decidable (_ ∧ _ ∧ _))

instance (checkouts : List CheckoutRow) : Decidable (OneDeposit p eventId email checkouts) :=
  inferInstanceAs (Decidable (List.Pairwise _ _))

structure Clean (p : Platform) (text : String) : Prop where
  trimmed : trimSpace text = text
  lower : toLower p.lowerRune text = text
  stored : p.lower text = text

def OrdinaryEmail (p : Platform) (participantData : String) : Prop :=
  lookupMap (p.unmarshalMap participantData) "email" = .null ∨
    ∃ text, lookupMap (p.unmarshalMap participantData) "email" = .str text ∧ Clean p text

/-- `json.Unmarshal` and `::jsonb ->> 'email'` read the same string from a document. -/
structure ReadsAlike (p : Platform) : Prop where
  string : ∀ text data value, p.jsonb text = some data →
    lookupMap (p.unmarshalMap text) "email" = .str value → p.jsonbText data "email" = some value
  absent : ∀ text data, p.jsonb text = some data →
    lookupMap (p.unmarshalMap text) "email" = .null → p.jsonbText data "email" = none
  empty : p.lower "" = ""

def Asked (log : History) (eventId : Int64) (reference email : String) : Prop :=
  ∃ earlier, log = ⟨.sql (.paidEmailExists eventId (some reference) email), .ok false⟩ :: earlier

/-- The request has been told that the e-mail is free and is about to perform one of its
two upserts. -/
def Cleared (thread : ServiceThread) (eventId : Int64) (reference email : String) : Prop :=
  thread.program.finished = false ∧ (Asked thread.log eventId reference email ∨
    ∃ walletAddress signature amount earlier, thread.log =
      ⟨.sql (.upsertPaidInvoice walletAddress reference signature amount), .ok ()⟩ :: earlier ∧
      Asked earlier eventId reference email)

/-- Sessions of the event have ordinary e-mails, and when one of this e-mail is written
paid, no other session of it has been told that the e-mail is free. -/
structure KeepsRule (p : Platform) (eventId : Int64) (email : String) (cfg : Service)
    (label : ServiceLabel) : Prop where
  arrivals : offers Request.checksEmail cfg label = true
  sessions : ∀ index thread checkout,
    Performs cfg label index thread (.sql (.upsertPaidCheckout checkout)) →
    checkout.eventId = eventId → OrdinaryEmail p checkout.participantData
  alone : ∀ index thread checkout,
    Performs cfg label index thread (.sql (.upsertPaidCheckout checkout)) →
    checkout.eventId = eventId →
    normalizeEmail p (p.unmarshalMap checkout.participantData) = email →
    Others cfg index fun other =>
      ∀ reference, Cleared other eventId reference email → reference = checkout.reference

-- What the database reads as the e-mail is what the finaliser has asked for.
theorem asked_email (readers : ReadsAlike p) (blank : email ≠ "") {participantData : String}
    (ordinary : OrdinaryEmail p participantData) {data : Json}
    (parsed : p.jsonb participantData = some data)
    (stored : p.lower ((p.jsonbText data "email").getD "") = email) :
    normalizeEmail p (p.unmarshalMap participantData) = email := by
  rcases ordinary with absent | ⟨text, carried, clean⟩
  · rw [readers.absent participantData data parsed absent, Option.getD_none, readers.empty] at stored
    exact absurd stored.symm blank
  · rw [readers.string participantData data text parsed carried, Option.getD_some, clean.stored]
      at stored
    rw [← stored, normalizeEmail, carried, sprint, clean.trimmed, clean.lower]

def ApartDeposits (p : Platform) (eventId : Int64) (email : String) (row other : CheckoutRow) : Prop :=
  row.reference ≠ other.reference ∧
    ¬ (Deposited p eventId email row ∧ Deposited p eventId email other)

instance : Std.Symm (ApartDeposits p eventId email) :=
  ⟨fun _ _ apart => ⟨apart.1.symm, fun both => apart.2 both.symm⟩⟩

structure Ruled (p : Platform) (init : Service) (eventId : Int64) (email : String) (cfg : Service) :
    Prop where
  provenance : Provenance p init cfg
  receipted : ∀ row ∈ cfg.world.checkouts, Receipted p init cfg row
  served : Served Request.checksEmail cfg
  cleared : ∀ thread ∈ cfg.threads, ∀ reference, Cleared thread eventId reference email →
    ∀ row ∈ cfg.world.checkouts, Deposited p eventId email row → row.reference = reference
  one : cfg.world.checkouts.Pairwise (ApartDeposits p eventId email)

section Step
variable (ruled : Ruled p init eventId email cfg) (keeps : KeepsRule p eventId email cfg label)
include ruled keeps

-- A deposit appears only by the upsert of a session of that e-mail.
theorem deposited_by (readers : ReadsAlike p) (blank : email ≠ "") {index : Nat}
    {thread : ServiceThread} {choice : Choice} {op : Op} {reply : Reply op} {later : World}
    (performs : Performs cfg label index thread op)
    (executed : exec p choice op cfg.world = some (reply, later)) {row : CheckoutRow}
    (member : row ∈ later.checkouts) (deposited : Deposited p eventId email row) :
    row ∈ cfg.world.checkouts ∨ ∃ checkout, op = .sql (.upsertPaidCheckout checkout) ∧
      row.reference = checkout.reference ∧ checkout.eventId = eventId ∧
      normalizeEmail p (p.unmarshalMap checkout.participantData) = email := by
  have present := List.mem_of_getElem? performs.2.1
  have issues := ruled.provenance.careful.issues present performs.2.2
  rcases exec_checkouts executed with unchanged | ⟨checkout, data, rfl, parsed, _, written⟩ |
    ⟨checkout, data, rfl | rfl, parsed, _, added⟩ | ⟨pending, rfl, removed⟩ |
    ⟨id, signature, sender, rfl, _⟩ | ⟨id, rfl, _⟩ | ⟨id, ownerEmail, rfl, removed⟩
  · rw [unchanged] at member
    exact .inl member
  · rw [written] at member
    obtain ⟨old, among, ⟨chosen, rfl⟩ | ⟨_, rfl⟩⟩ := mem_updateWhere member
    · have reference : old.reference = checkout.reference := by simpa using chosen
      obtain ⟨earlier, logged, finalises⟩ := issues
      have within : earlier <:+ thread.log := by
        rw [logged]
        exact List.suffix_cons _ _
      obtain ⟨event, _, _, up, same, _⟩ :=
        finalises_evidence ruled.provenance present within finalises
      rw [← reference] at up
      have terms := (ruled.receipted old among).terms ruled.provenance up
      have of_event : checkout.eventId = eventId := by
        rw [same, ← terms.1]
        exact deposited.1
      have stored : p.lower ((p.jsonbText data "email").getD "") = email :=
        of_decide_eq_true deposited.2.2
      exact .inr ⟨checkout, rfl, reference, of_event, asked_email readers blank
        (keeps.sessions index thread checkout performs of_event) parsed stored⟩
    · exact .inl among
  · rw [added] at member
    rcases List.mem_append.mp member with older | newest
    · exact .inl older
    · rw [List.mem_singleton] at newest
      subst newest
      have stored : p.lower ((p.jsonbText data "email").getD "") = email :=
        of_decide_eq_true deposited.2.2
      exact .inr ⟨checkout, rfl, rfl, deposited.1, asked_email readers blank
        (keeps.sessions index thread checkout performs deposited.1) parsed stored⟩
  · have offered := ruled.served thread present
    rw [Request.checksEmail, issues.1] at offered
    cases offered
  · rw [removed] at member
    exact .inl (List.mem_filter.mp member).1
  · obtain ⟨_, rows, listed, read, among, _⟩ := issues
    exact absurd among (ruled.provenance.nothing_recoverable present read)
  · obtain ⟨_, rows, listed, read, among, _⟩ := issues
    exact absurd among (ruled.provenance.nothing_recoverable present read)
  · rw [removed] at member
    exact .inl (List.mem_filter.mp member).1

omit keeps in
-- Who upserts a session of this e-mail has been told that it is free.
theorem cleared_of_upsert (blank : email ≠ "") (absent : email ≠ "<nil>") {thread : ServiceThread}
    (present : thread ∈ cfg.threads) {checkout : PaidCheckout}
    (suspended : thread.Issues (.sql (.upsertPaidCheckout checkout)))
    (of_event : checkout.eventId = eventId)
    (of_email : normalizeEmail p (p.unmarshalMap checkout.participantData) = email) :
    Cleared thread eventId checkout.reference email := by
  obtain ⟨earlier, logged, finalises⟩ := ruled.provenance.careful.issues present suspended
  subst of_event of_email
  rcases finalises.email with empty | missing | asked
  · exact absurd empty blank
  · exact absurd missing absent
  · obtain ⟨rest, program⟩ := suspended
    exact ⟨by rw [program]; rfl, .inr ⟨_, _, _, earlier, logged, asked⟩⟩

theorem cleared_next (readers : ReadsAlike p) (blank : email ≠ "")
    (stepped : (machine p).next cfg label = some after) :
    ∀ thread ∈ after.threads, ∀ reference, Cleared thread eventId reference email →
      ∀ row ∈ after.world.checkouts, Deposited p eventId email row → row.reference = reference := by
  intro current member reference cleared row among deposited
  obtain ⟨index, found⟩ := List.mem_iff_getElem?.mp member
  rcases thread_after stepped found with old | ⟨request, _, rfl, _⟩ |
    ⟨choice, thread, op, rest, reply, rfl, at_index, program, executed, rfl⟩
  · have before := ruled.cleared current (List.mem_of_getElem? old) reference cleared
    rcases next_cases stepped with ⟨request, rfl, rfl⟩ | ⟨event, world, rfl, occurred, rfl⟩ |
      ⟨moved, choice, thread, op, rest, reply, world, rfl, at_moved, program, executed, same⟩
    · exact before row among deposited
    · have unchanged := occur_frame .checkouts occurred (by decide)
      rw [unchanged] at among
      exact before row among deposited
    · have performs : Performs cfg (.step moved choice : ServiceLabel) moved thread op :=
        ⟨⟨choice, rfl⟩, at_moved, rest, program⟩
      rw [same] at among
      rcases deposited_by ruled keeps readers blank performs executed among deposited with
        already | ⟨checkout, rfl, written, of_event, of_email⟩
      · exact before row already deposited
      · -- Another session is written: nobody else may be cleared.
        have elsewhere := old_elsewhere stepped old found
        rw [written]
        exact (keeps.alone moved thread checkout performs of_event of_email index current elsewhere
          old reference cleared).symm
  · rcases cleared.2 with ⟨_, asked⟩ | ⟨_, _, _, _, paid, _⟩
    · cases asked
    · cases paid
  · have present := List.mem_of_getElem? at_index
    rcases cleared.2 with ⟨earlier, asked⟩ | ⟨walletAddress, signature, amount, earlier, paid, asked⟩
    · -- The thread has just asked.
      simp only [Thread.resumed, List.cons.injEq, Entry.mk.injEq] at asked
      obtain ⟨⟨rfl, answered⟩, _⟩ := asked
      have answer := eq_of_heq answered
      subst answer
      rcases exec_sql executed with ⟨_, wrong, _⟩ | ⟨value, free, ran⟩
      · cases wrong
      · cases free
        simp only [Sql.run, Except.ok.injEq, Prod.mk.injEq] at ran
        rw [← ran.2] at among
        by_contra other
        have taken : paidEmailRow p eventId (some reference) email cfg.world.checkouts = true := by
          refine List.any_eq_true.mpr ⟨row, among, ?_⟩
          simp [deposited.1, deposited.2.1, deposited.2.2, CheckoutRow.isPaid, other]
        rw [ran.1] at taken
        cases taken
    · -- Its invoice upsert leaves the checkouts alone.
      simp only [Thread.resumed, List.cons.injEq, Entry.mk.injEq] at paid
      obtain ⟨⟨rfl, _⟩, logged⟩ := paid
      have performed : exec p choice _ cfg.world = some (reply, after.world) := executed
      have unchanged := exec_frame .checkouts performed (by simp [Op.writes, Sql.writes])
      rw [unchanged] at among
      rw [← logged] at asked
      exact ruled.cleared thread present reference ⟨by rw [program]; rfl, .inl asked⟩ row among
        deposited

theorem one_next (readers : ReadsAlike p) (blank : email ≠ "") (absent : email ≠ "<nil>")
    (stepped : (machine p).next cfg label = some after) :
    after.world.checkouts.Pairwise (ApartDeposits p eventId email) := by
  rcases next_cases stepped with ⟨request, rfl, rfl⟩ | ⟨event, world, rfl, occurred, rfl⟩ |
    ⟨index, choice, thread, op, rest, reply, world, rfl, at_index, program, executed, same⟩
  · exact ruled.one
  · have unchanged := occur_frame .checkouts occurred (by decide)
    rw [unchanged]
    exact ruled.one
  · have performs : Performs cfg (.step index choice : ServiceLabel) index thread op :=
      ⟨⟨choice, rfl⟩, at_index, rest, program⟩
    have present := List.mem_of_getElem? at_index
    -- A row that comes to be a deposit is the only one.
    have alone {row other : CheckoutRow} (member : row ∈ world.checkouts)
        (among : other ∈ cfg.world.checkouts) (elsewhere : row.reference ≠ other.reference) :
        ¬ (Deposited p eventId email row ∧ Deposited p eventId email other) := by
      rintro ⟨deposited, also⟩
      rcases deposited_by ruled keeps readers blank performs executed member deposited with
        already | ⟨checkout, rfl, written, of_event, of_email⟩
      · have different : row ≠ other := fun equal => elsewhere (congrArg CheckoutRow.reference equal)
        exact (ruled.one.forall already among different).2 ⟨deposited, also⟩
      · have cleared := cleared_of_upsert ruled blank absent present ⟨rest, program⟩ of_event of_email
        have same_reference := ruled.cleared thread present _ cleared other among also
        exact elsewhere (written.trans same_reference.symm)
    rw [same]
    rcases exec_checkouts executed with unchanged | ⟨checkout, data, _, _, conflict, written⟩ |
      ⟨checkout, data, _, _, fresh, added⟩ | ⟨pending, _, removed⟩ |
      ⟨id, signature, sender, rfl, _⟩ | ⟨id, rfl, _⟩ | ⟨id, ownerEmail, _, removed⟩
    · rw [unchanged]
      exact ruled.one
    · rw [written]
      refine pairwise_overwrite (fun _ _ related => related.1) ?_ ruled.one
      intro row member other among chosen related
      have overwritten : row.overwrite checkout cfg.world.now data ∈ world.checkouts := by
        rw [written]
        rcases updateWhere_mem (·.reference = checkout.reference)
          (·.overwrite checkout cfg.world.now data) member with ⟨_, changed⟩ | ⟨unchosen, _⟩
        · exact changed
        · exact absurd chosen (by simpa using unchosen)
      exact ⟨related.1, alone overwritten among related.1⟩
    · have appended : checkout.row cfg.world.nextCheckoutId cfg.world.now data ∈ world.checkouts := by
        rw [added]
        exact List.mem_append_right _ (List.mem_singleton_self _)
      rw [added, List.pairwise_append]
      refine ⟨ruled.one, List.pairwise_singleton _ _, ?_⟩
      intro other among row singleton
      rw [List.mem_singleton] at singleton
      subst singleton
      have elsewhere : checkout.reference ≠ other.reference := (fresh other among).symm
      exact symm ⟨elsewhere, alone appended among elsewhere⟩
    · rw [removed]
      exact ruled.one.filter _
    · obtain ⟨_, rows, listed, read, among, _⟩ :=
        ruled.provenance.careful.issues present ⟨rest, program⟩
      exact absurd among (ruled.provenance.nothing_recoverable present read)
    · obtain ⟨_, rows, listed, read, among, _⟩ :=
        ruled.provenance.careful.issues present ⟨rest, program⟩
      exact absurd among (ruled.provenance.nothing_recoverable present read)
    · rw [removed]
      exact ruled.one.filter _

end Step

/-- In every run whose finalisers of one e-mail do not overlap between the question and
the answer to it, at most one checkout of an event is paid under that e-mail. -/
theorem one_deposit_per_email (fresh : Fresh init) (readers : ReadsAlike p) (blank : email ≠ "")
    (absent : email ≠ "<nil>") (run : (machine p).Reaches (KeepsRule p eventId email) init cfg) :
    OneDeposit p eventId email cfg.world.checkouts := by
  have ruled := run.invariant (Ruled p init eventId email)
    ⟨fresh.provenance, by simp [fresh.checkouts], by simp [Served, fresh.threads],
      by simp [fresh.threads], by simp [fresh.checkouts]⟩
    fun _ _ _ ruled keeps stepped =>
      ⟨ruled.provenance.next stepped, receipted_next ruled.provenance ruled.receipted stepped,
        served_next ruled.served keeps.arrivals stepped,
        cleared_next ruled keeps readers blank stepped,
        one_next ruled keeps readers blank absent stepped⟩
  exact ruled.one.imp fun apart => apart.2

theorem readsAlike_mainnet : ReadsAlike Mainnet.platform where
  string text data value parsed carried := by
    by_cases known : text = Mainnet.participantText
    · subst known
      cases parsed
      cases carried
      rfl
    · simp [Mainnet.platform, known, lookupMap, lookup] at carried
  absent text data parsed missing := by
    by_cases known : text = Mainnet.participantText
    · subst known
      cases missing
    · simp only [Mainnet.platform, if_neg known] at parsed
      split at parsed
      · cases parsed
        rfl
      · split at parsed
        · cases parsed
          rfl
        · cases parsed
  empty := rfl

theorem clean_mainnet : Clean Mainnet.platform Mainnet.email where
  trimmed := by decide +kernel
  lower := by decide +kernel
  stored := by decide +kernel

theorem ordinary_mainnet (participantData : String) :
    OrdinaryEmail Mainnet.platform participantData := by
  by_cases known : participantData = Mainnet.participantText
  · subst known
    exact .inr ⟨Mainnet.email, rfl, clean_mainnet⟩
  · left
    simp [Mainnet.platform, known, lookupMap, lookup]

theorem keepsRule_alone (one : AtMostOneBusy cfg)
    (arrivals : offers Request.checksEmail cfg label = true) :
    KeepsRule Mainnet.platform eventId email cfg label where
  arrivals := arrivals
  sessions _ _ checkout _ _ := ordinary_mainnet checkout.participantData
  alone index thread checkout performs _ _ j other elsewhere at_j reference cleared := by
    have ended : other.program.finished = true := one.others performs j other elsewhere at_j
    rw [cleared.1] at ended
    cases ended

theorem one_deposit_per_email_meetup :
    ∃ cfg : Service, (∃ row ∈ cfg.world.checkouts, Deposited Mainnet.platform 1 Mainnet.email row) ∧
      OneDeposit Mainnet.platform 1 Mainnet.email cfg.world.checkouts := by
  obtain ⟨cfg, run, row, member, paid, of_event, of_email⟩ := Mainnet.confirmed_deposit
  refine ⟨cfg, ⟨row, member, of_event, paid, of_email⟩, ?_⟩
  refine one_deposit_per_email (Mainnet.opening_fresh _) readsAlike_mainnet (by decide) (by decide)
    ((run.alone (by simp [AtMostOneBusy, Mainnet.opening])).1.mono fun _ label meets => ?_)
  refine keepsRule_alone meets.1 ?_
  have offered := meets.2
  cases label with
  | arrive request => cases request <;> first | rfl | cases offered
  | _ => rfl

/-- Two sessions of one e-mail are confirmed; both are told that it is free before
either is written. -/
theorem two_deposits_one_email :
    ∃ cfg : Service, (machine Mainnet.platform).Reaches
        (fun cfg label => offers (fun request => request.opensSession || request.isLegacyFinaliser)
          cfg label = true)
        (Mainnet.opening [Mainnet.landed Mainnet.signature2 [Mainnet.uuid2],
          Mainnet.landed Mainnet.signature1 [Mainnet.uuid1]]) cfg ∧
      Clean Mainnet.platform Mainnet.email ∧
      ¬ OneDeposit Mainnet.platform 1 Mainnet.email cfg.world.checkouts := by
  obtain ⟨cfg, run, done⟩ := run_meets (machine Mainnet.platform)
    (offers fun request => request.opensSession || request.isLegacyFinaliser)
    (.arrive Mainnet.createInvoice :: Mainnet.steps 0 6 Mainnet.uuid1 ++
      .arrive Mainnet.createInvoice :: Mainnet.steps 1 6 Mainnet.uuid2 ++
      .arrive (Mainnet.confirm Mainnet.uuid1 Mainnet.signatureText1) ::
      .arrive (Mainnet.confirm Mainnet.uuid2 Mainnet.signatureText2) ::
      Mainnet.steps 2 4 "" ++ Mainnet.steps 3 8 "" ++ Mainnet.steps 2 4 "")
    (Mainnet.opening [Mainnet.landed Mainnet.signature2 [Mainnet.uuid2],
      Mainnet.landed Mainnet.signature1 [Mainnet.uuid1]])
    (fun cfg => !decide (OneDeposit Mainnet.platform 1 Mainnet.email cfg.world.checkouts))
    (by decide +kernel)
  simp only [Bool.not_eq_true', decide_eq_false_iff_not] at done
  exact ⟨cfg, run, clean_mainnet, done⟩

end Payknot
