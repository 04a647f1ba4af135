import Payknot.LedgerWrites
import Payknot.Receipts

/-! One on-chain payment, one checkout. No table makes signatures unique, and manual
verification takes a signature without asking whether it is used; what does keep them
apart is the memo of a session payment. -/
namespace Payknot
open GoText Interleaving Machine

variable {p : Platform} {init cfg after : Service} {label : ServiceLabel}

def SignaturesDistinct (checkouts : List CheckoutRow) : Prop :=
  checkouts.Pairwise fun row other =>
    row.status = .paid → other.status = .paid → row.signature ≠ other.signature

instance (checkouts : List CheckoutRow) : Decidable (SignaturesDistinct checkouts) :=
  inferInstanceAs (Decidable (List.Pairwise _ _))

def Request.submits : Request → Option String
  | .manualVerify ⟨_, some req⟩ => some (trimSpace req.signature)
  | _ => none

/-- The request has recorded no deposit without a session, and will not. -/
def NeverRecords (thread : ServiceThread) : Prop :=
  Unrecorded thread.log ∧ ¬ thread.program.May fun op => ∃ checkout, op = .sql (.insertPaidCheckout checkout)

/-- A transaction of the signature carries in a memo what a session was set up under. -/
def NamesSession (p : Platform) (cfg : Service) (signature reference : String) : Prop :=
  ∃ event tx, SetUp cfg reference event ∧ OnChain p cfg.world signature tx ∧ CarriesMemo p tx reference

/-- A signature comes to manual verification again only if it was refused before, none that
comes there names a session, and none names two. -/
structure PaymentsApart (p : Platform) (cfg : Service) (label : ServiceLabel) : Prop where
  manual : ∀ request signature, label = .arrive request → request.submits = some signature →
    ∀ thread ∈ cfg.threads, thread.request.submits = some signature → NeverRecords thread
  direct : ∀ thread ∈ cfg.threads, ∀ signature, thread.request.submits = some signature →
    ∀ reference, ¬ NamesSession p cfg signature reference
  memo : ∀ signature reference other, NamesSession p cfg signature reference →
    NamesSession p cfg signature other → reference = other

def Apart (row other : CheckoutRow) : Prop :=
  row.reference ≠ other.reference ∧ row.signature ≠ other.signature

instance : Std.Symm Apart := ⟨fun _ _ apart => ⟨apart.1.symm, apart.2.symm⟩⟩

/-- The request that drew the row's reference has recorded the row, under the signature it was given. -/
def RecordedBy (thread : ServiceThread) (row : CheckoutRow) : Prop :=
  ∃ checkout reply, thread.log.Saw (.sql (.insertPaidCheckout checkout)) reply ∧
    row.signature = some checkout.signature ∧ thread.request.submits = some checkout.signature

structure Separate (p : Platform) (init cfg : Service) : Prop where
  held : Provenance p init cfg
  receipted : ∀ row ∈ cfg.world.checkouts, Receipted p init cfg row
  given : Disciplined (RecordsGiven p) (fun _ _ _ => True) cfg
  recorded : ∀ row ∈ cfg.world.checkouts, ∀ thread ∈ cfg.threads, thread.request.isManualVerify = true →
    thread.log.Saw .newUUID row.reference → RecordedBy thread row
  once : ∀ (i j : Nat) (first second : ServiceThread) (signature : String), cfg.threads[i]? = some first →
    cfg.threads[j]? = some second → first.request.submits = some signature →
    second.request.submits = some signature → i = j ∨ NeverRecords first ∨ NeverRecords second
  apart : cfg.world.checkouts.Pairwise Apart

theorem submits_of_given {request : Request} {log : History} {checkout : PaidCheckout}
    (given : RecordsGiven p request log (.sql (.insertPaidCheckout checkout))) :
    request.submits = some checkout.signature := by
  obtain ⟨_, req, rfl, same, _⟩ := given
  rw [same]
  rfl

-- A finaliser's transaction names the session it finalises.
theorem finalised_names (held : Provenance p init cfg) {thread : ServiceThread} {checkout : PaidCheckout}
    (present : thread ∈ cfg.threads) (suspended : thread.Issues (.sql (.upsertPaidCheckout checkout))) :
    NamesSession p cfg checkout.signature checkout.reference := by
  obtain ⟨earlier, logged, finalises⟩ := held.careful.issues present suspended
  have within : earlier <:+ thread.log := by
    rw [logged]
    exact List.suffix_cons _ _
  obtain ⟨event, merchant, tx, up, _, _, _, onChain, _, memo⟩ := finalises_evidence held present within finalises
  exact ⟨event, tx, up, onChain, memo⟩

section Writing
variable (separate : Separate p init cfg) (payments : PaymentsApart p cfg label)
include separate

/-- The row of another reference was paid by a transaction that names its session, or was
recorded by a manual verification of its signature. -/
theorem row_paid_by {row : CheckoutRow} (member : row ∈ cfg.world.checkouts) {signature : String}
    (signed : row.signature = some signature) :
    NamesSession p cfg signature row.reference ∨ ∃ thread ∈ cfg.threads, RecordedBy thread row := by
  obtain ⟨opener, present, event, merchant, text, tx, receipt⟩ := separate.receipted row member
  rcases receipt.memo with ⟨opens, carried⟩ | manual
  · have same := receipt.signed
    rw [signed, Option.some.injEq] at same
    subst same
    exact .inl ⟨event, tx, ⟨opener, present, opens, receipt.drew, receipt.read⟩, receipt.onChain, carried⟩
  · exact .inr ⟨opener, present, separate.recorded row member opener present manual receipt.drew⟩

include payments

-- The memo keeps a session payment from a row of another reference.
theorem session_signature_unused {thread : ServiceThread} {checkout : PaidCheckout}
    (present : thread ∈ cfg.threads) (suspended : thread.Issues (.sql (.upsertPaidCheckout checkout)))
    {row : CheckoutRow} (member : row ∈ cfg.world.checkouts) (other : row.reference ≠ checkout.reference) :
    row.signature ≠ some checkout.signature := by
  intro same
  have names := finalised_names separate.held present suspended
  rcases row_paid_by separate member same with session | ⟨opener, among, recorded, _, _, signed, submits⟩
  · exact other (payments.memo _ _ _ session names)
  · rw [same, Option.some.injEq] at signed
    rw [← signed] at submits
    exact payments.direct opener among _ submits _ names

-- A deposit recorded without a session has a signature no row carries.
theorem manual_signature_unused {index : Nat} {thread : ServiceThread} {checkout : PaidCheckout}
    (at_index : cfg.threads[index]? = some thread)
    (suspended : thread.Issues (.sql (.insertPaidCheckout checkout))) {row : CheckoutRow}
    (member : row ∈ cfg.world.checkouts) : row.signature ≠ some checkout.signature := by
  intro same
  have present := List.mem_of_getElem? at_index
  have given := separate.given.issues present suspended
  have submits := submits_of_given given
  rcases row_paid_by separate member same with session | ⟨opener, among, recorded, reply, saw, signed, also⟩
  · exact payments.direct thread present _ submits _ session
  · rw [same, Option.some.injEq] at signed
    rw [← signed] at also
    obtain ⟨j, at_j⟩ := List.mem_iff_getElem?.mp among
    rcases separate.once j index opener thread _ at_j at_index also submits with here | never | never
    · rw [here, at_index, Option.some.injEq] at at_j
      subst at_j
      exact given.1 recorded reply saw
    · exact never.1 recorded reply saw
    · obtain ⟨rest, program⟩ := suspended
      refine never.2 ?_
      rw [program]
      exact .inl ⟨checkout, rfl⟩

end Writing

theorem apart_overwrite {checkouts : List CheckoutRow} {checkout : PaidCheckout} {now : Time}
    {data : Json} (apart : checkouts.Pairwise Apart)
    (unused : ∀ row ∈ checkouts, row.reference ≠ checkout.reference →
      row.signature ≠ some checkout.signature) :
    (overwriteCheckouts checkout now data checkouts).Pairwise Apart := by
  refine pairwise_overwrite (fun _ _ apart => apart.1) ?_ apart
  intro row member other other_member chosen apart
  have elsewhere : other.reference ≠ checkout.reference := fun same =>
    apart.1 (chosen.trans same.symm)
  exact ⟨apart.1, (unused other other_member elsewhere).symm⟩

-- A request that has drawn the reference of a session is no manual verification.
theorem setUp_not_manual (held : Provenance p init cfg) {reference : String} {event : EventRow}
    (up : SetUp cfg reference event) {thread : ServiceThread} (member : thread ∈ cfg.threads)
    (drew : thread.log.Saw .newUUID reference) : thread.request.isManualVerify = false := by
  obtain ⟨opener, present, opened⟩ := up
  obtain ⟨i, at_i⟩ := List.mem_iff_getElem?.mp present
  obtain ⟨j, at_j⟩ := List.mem_iff_getElem?.mp member
  have same := held.sole i j opener thread reference at_i at_j opened.drew drew
  rw [same, at_j, Option.some.injEq] at at_i
  have opens := opened.opens
  rw [← at_i] at opens
  generalize thread.request = request at opens
  cases request <;> first | rfl | cases opens

theorem NeverRecords.resumed {thread : ServiceThread} {op : Op} {rest : Reply op → Handler Answer}
    (never : NeverRecords thread) (program : thread.program = .call op rest) (reply : Reply op) :
    NeverRecords (thread.resumed op reply rest) := by
  obtain ⟨unrecorded, quiet⟩ := never
  rw [program] at quiet
  refine ⟨unrecorded.cons (fun checkout same => quiet (.inl ⟨checkout, same⟩)) reply, fun may => ?_⟩
  exact quiet (.inr ⟨reply, may⟩)

theorem thread_origin (stepped : (machine p).next cfg label = some after) {index : Nat}
    {current : ServiceThread} (found : after.threads[index]? = some current) :
    (∃ thread, cfg.threads[index]? = some thread ∧ thread.request = current.request ∧
      (NeverRecords thread → NeverRecords current)) ∨
    (label = .arrive current.request ∧ index = cfg.threads.length) := by
  rcases thread_after stepped found with old | ⟨request, rfl, rfl, outside⟩ |
    ⟨choice, thread, op, rest, reply, rfl, at_index, program, executed, rfl⟩
  · exact .inl ⟨current, old, rfl, id⟩
  · refine .inr ⟨rfl, ?_⟩
    cases stepped
    have inside := (List.getElem?_eq_some_iff.mp found).1
    rw [List.length_append, List.length_singleton] at inside
    have beyond := List.getElem?_eq_none_iff.mp outside
    omega
  · exact .inl ⟨thread, at_index, rfl, fun never => never.resumed program reply⟩

section Step
variable (separate : Separate p init cfg) (payments : PaymentsApart p cfg label)
variable (stepped : (machine p).next cfg label = some after)
include separate payments stepped

theorem once_next : ∀ (i j : Nat) (first second : ServiceThread) (signature : String),
    after.threads[i]? = some first → after.threads[j]? = some second →
    first.request.submits = some signature → second.request.submits = some signature →
    i = j ∨ NeverRecords first ∨ NeverRecords second := by
  intro i j first second signature at_i at_j submits also
  rcases thread_origin stepped at_i with ⟨thread, old_i, same, kept⟩ | ⟨arrives, last⟩
  · rcases thread_origin stepped at_j with ⟨other, old_j, same', kept'⟩ | ⟨arrives, _⟩
    · rw [← same] at submits
      rw [← same'] at also
      rcases separate.once i j thread other signature old_i old_j submits also with here | never | never
      · exact .inl here
      · exact .inr (.inl (kept never))
      · exact .inr (.inr (kept' never))
    · rw [← same] at submits
      exact .inr (.inl (kept (payments.manual _ _ arrives also thread (List.mem_of_getElem? old_i) submits)))
  · rcases thread_origin stepped at_j with ⟨other, old_j, same', kept'⟩ | ⟨_, also_last⟩
    · rw [← same'] at also
      exact .inr (.inr (kept' (payments.manual _ _ arrives submits other (List.mem_of_getElem? old_j) also)))
    · exact .inl (last.trans also_last.symm)

theorem apart_next : after.world.checkouts.Pairwise Apart := by
  have apart := separate.apart
  have held := separate.held
  rcases next_cases stepped with ⟨request, rfl, rfl⟩ | ⟨event, world, rfl, occurred, rfl⟩ |
    ⟨index, choice, thread, op, rest, reply, world, rfl, at_index, program, executed, same⟩
  · exact apart
  · have unchanged := occur_frame .checkouts occurred (by decide)
    rw [unchanged]
    exact apart
  · rw [same]
    have present := List.mem_of_getElem? at_index
    have suspended : thread.Issues op := ⟨rest, program⟩
    rcases exec_checkouts executed with unchanged | ⟨checkout, data, rfl, _, _, written⟩ |
      ⟨checkout, data, issued, _, fresh, added⟩ | ⟨reference, rfl, removed⟩ |
      ⟨id, signature, sender, rfl, marked⟩ | ⟨id, rfl, marked⟩ | ⟨id, ownerEmail, rfl, removed⟩
    · rw [unchanged]
      exact apart
    · rw [written]
      exact apart_overwrite apart fun row member other =>
        session_signature_unused separate payments present suspended member other
    · rw [added, List.pairwise_append]
      refine ⟨apart, List.pairwise_singleton _ _, ?_⟩
      intro row member new singleton
      rw [List.mem_singleton] at singleton
      subst singleton
      rcases issued with rfl | rfl
      · exact ⟨fresh row member, session_signature_unused separate payments present suspended member
          (fresh row member)⟩
      · exact ⟨fresh row member, manual_signature_unused separate payments at_index suspended member⟩
    · rw [removed]
      exact apart.filter _
    · obtain ⟨_, rows, listed, read, among, _⟩ := held.careful.issues present suspended
      exact absurd among (held.nothing_recoverable present read)
    · obtain ⟨_, rows, listed, read, among, _⟩ := held.careful.issues present suspended
      exact absurd among (held.nothing_recoverable present read)
    · rw [removed]
      exact apart.filter _

omit payments

theorem recorded_next : ∀ row ∈ after.world.checkouts, ∀ thread ∈ after.threads,
    thread.request.isManualVerify = true → thread.log.Saw .newUUID row.reference → RecordedBy thread row := by
  intro row member current present manual drew
  have later := separate.held.next stepped
  obtain ⟨index, found⟩ := List.mem_iff_getElem?.mp present
  have session {event : EventRow} (up : SetUp cfg row.reference event) : False := by
    have other := setUp_not_manual later (up.next stepped) present drew
    rw [manual] at other
    cases other
  have old (among : row ∈ cfg.world.checkouts) : RecordedBy current row := by
    rcases saw_after stepped found drew with ⟨thread, at_index, same, before⟩ | ⟨_, _, _, _, _, _, executed, _⟩
    · rw [← same] at manual
      obtain ⟨checkout, reply, saw, signed, submits⟩ :=
        separate.recorded row among thread (List.mem_of_getElem? at_index) manual before
      obtain ⟨_, still, _, grown⟩ := thread_kept stepped at_index
      rw [found, Option.some.injEq] at still
      subst still
      exact ⟨checkout, reply, saw.mono grown, signed, by rw [← same]; exact submits⟩
    · -- The row's reference had been drawn before.
      obtain ⟨opener, among', _, _, _, _, receipt⟩ := separate.receipted row among
      exact absurd (separate.held.truthful opener among' _ receipt.drew).1 (exec_newUUID executed).1
  rcases next_cases stepped with ⟨request, rfl, rfl⟩ | ⟨event, world, rfl, occurred, rfl⟩ |
    ⟨moved, choice, thread, op, rest, reply, world, rfl, at_moved, program, executed, rfl⟩
  · exact old member
  · have unchanged : world.checkouts = cfg.world.checkouts := occur_frame .checkouts occurred (by decide)
    rw [unchanged] at member
    exact old member
  · have held := separate.held
    have performer := List.mem_of_getElem? at_moved
    have suspended : thread.Issues op := ⟨rest, program⟩
    rcases exec_checkouts executed with unchanged | ⟨checkout, data, rfl, _, _, written⟩ |
      ⟨checkout, data, issued, _, fresh, added⟩ | ⟨reference, rfl, removed⟩ |
      ⟨id, signature, sender, rfl, marked⟩ | ⟨id, rfl, marked⟩ | ⟨id, ownerEmail, rfl, removed⟩
    · rw [unchanged] at member
      exact old member
    · rw [written] at member
      obtain ⟨stored, among, ⟨chosen, rfl⟩ | ⟨_, rfl⟩⟩ := mem_updateWhere member
      · obtain ⟨event, _, up, _⟩ := finalised_names held performer suspended
        have same : stored.reference = checkout.reference := by simpa using chosen
        rw [← same] at up
        exact (session up).elim
      · exact old among
    · rw [added, List.mem_append, List.mem_singleton] at member
      rcases member with older | rfl
      · exact old older
      rcases issued with rfl | rfl
      · obtain ⟨event, _, up, _⟩ := finalised_names held performer suspended
        exact (session up).elim
      · obtain ⟨_, _, _, drawn, _⟩ := held.careful.issues performer suspended
        have at_place : (cfg.threads.set moved (thread.resumed _ reply rest))[moved]? =
            some (thread.resumed _ reply rest) :=
          List.getElem?_set_self (List.getElem?_eq_some_iff.mp at_moved).1
        have here := later.sole index moved current _ _ found at_place drew (drawn.mono (List.suffix_cons _ _))
        subst here
        rw [at_place, Option.some.injEq] at found
        subst found
        have given := separate.given.issues performer suspended
        exact ⟨checkout, reply, List.mem_cons_self, rfl, submits_of_given given⟩
    · rw [removed] at member
      exact old (List.mem_filter.mp member).1
    · obtain ⟨_, rows, listed, read, among, _⟩ := held.careful.issues performer suspended
      exact absurd among (held.nothing_recoverable performer read)
    · obtain ⟨_, rows, listed, read, among, _⟩ := held.careful.issues performer suspended
      exact absurd among (held.nothing_recoverable performer read)
    · rw [removed] at member
      exact old (List.mem_filter.mp member).1

end Step

theorem separate_next (separate : Separate p init cfg) (payments : PaymentsApart p cfg label)
    (stepped : (machine p).next cfg label = some after) : Separate p init after where
  held := separate.held.next stepped
  receipted := receipted_next separate.held separate.receipted stepped
  given := disciplined_next given_handler separate.given stepped
  recorded := recorded_next separate stepped
  once := once_next separate payments stepped
  apart := apart_next separate payments stepped

/-- One payment pays one checkout, whatever the interleaving and whatever fails, as long as
manual verification is given other signatures than the sessions, none a second time once it
has taken it, and no transaction names two sessions. -/
theorem signatures_distinct (fresh : Fresh init)
    (run : (machine p).Reaches (PaymentsApart p) init cfg) :
    SignaturesDistinct cfg.world.checkouts := by
  have start : Separate p init init :=
    { held := fresh.provenance, receipted := by simp [fresh.checkouts]
      given := by simp [Disciplined, fresh.threads], recorded := by simp [fresh.checkouts]
      once := by simp [fresh.threads], apart := by simp [fresh.checkouts] }
  have separate := run.invariant (Separate p init) start
    fun _ _ _ separate payments stepped => separate_next separate payments stepped
  exact separate.apart.imp fun apart _ _ => apart.2


section Meetup

theorem carriesMemo_iff (tx : Transaction) (reference : String) :
    CarriesMemo p tx reference ↔ ((p.publicKeyFromBase58 memoProgramV1Text).any fun memoV1 =>
      tx.instructions.any fun instruction => (tx.accountKeys[instruction.programIDIndex]?).any fun programID =>
        isMemo p memoV1 programID && containsText instruction.data reference) = true := by
  simp [CarriesMemo, MemoAt, Option.any_eq_true, List.any_eq_true]

instance (tx : Transaction) (reference : String) : Decidable (CarriesMemo p tx reference) :=
  decidable_of_iff _ (carriesMemo_iff tx reference).symm

def Entry.drawn : Entry Reply → Option String
  | ⟨.newUUID, uuid⟩ => some uuid
  | _ => none

def drawnForSessions (cfg : Service) : List String :=
  (cfg.threads.filter (·.request.opensSession)).flatMap fun thread => thread.log.filterMap Entry.drawn

def Entry.records : Entry Reply → Bool
  | ⟨.sql (.insertPaidCheckout _), _⟩ => true
  | _ => false

/-- No transaction of the signature names anything drawn for a session. -/
def namesNone (p : Platform) (cfg : Service) (signature : String) : Bool :=
  (drawnForSessions cfg).all fun reference => cfg.world.chain.all fun landed =>
    match p.signatureFromBase58 signature, landed.result.transaction with
    | .ok sig, .ok tx => landed.signature ≠ sig || !decide (CarriesMemo p tx reference)
    | _, _ => true

/-- The condition, where one can compute it: there is one session at most. -/
def paysApart (p : Platform) (reference : String) (cfg : Service) (label : ServiceLabel) : Bool :=
  (match label with
    | .arrive request => request.submits.all fun signature => cfg.threads.all fun thread =>
        thread.request.submits ≠ some signature ||
          (thread.program.finished && thread.log.all (!Entry.records ·))
    | _ => true) &&
  (cfg.threads.all fun thread => thread.request.submits.all fun signature => namesNone p cfg signature) &&
    (drawnForSessions cfg).all (· = reference)

theorem mem_drawnForSessions {reference : String} {event : EventRow} (up : SetUp cfg reference event) :
    reference ∈ drawnForSessions cfg := by
  obtain ⟨thread, member, opened⟩ := up
  refine List.mem_flatMap.mpr ⟨thread, List.mem_filter.mpr ⟨member, opened.opens⟩, ?_⟩
  exact List.mem_filterMap.mpr ⟨_, opened.drew, rfl⟩

theorem unnamed_of_namesNone {signature reference : String} (none_named : namesNone p cfg signature = true) :
    ¬ NamesSession p cfg signature reference := by
  rintro ⟨event, tx, up, ⟨sig, parsed, landed, member, same, _, body⟩, carried⟩
  have checked := List.all_eq_true.mp (List.all_eq_true.mp none_named reference (mem_drawnForSessions up))
    landed member
  simp [parsed, body, same, carried] at checked

theorem paymentsApart_of_paysApart {reference : String} (pays : paysApart p reference cfg label = true) :
    PaymentsApart p cfg label := by
  simp only [paysApart, Bool.and_eq_true, List.all_eq_true, decide_eq_true_eq] at pays
  obtain ⟨⟨arrivals, unnamed⟩, one⟩ := pays
  refine ⟨?_, ?_, ?_⟩
  · rintro request signature rfl submits thread member same
    simp only [submits, Option.all_some, List.all_eq_true, Bool.or_eq_true, Bool.and_eq_true,
      decide_eq_true_eq] at arrivals
    obtain ⟨ended, unrecorded⟩ := (arrivals thread member).resolve_left (absurd same)
    refine ⟨fun checkout reply saw => ?_, Program.May.of_finished ended⟩
    simpa [Entry.records] using unrecorded _ saw
  · intro thread member signature submits named
    have checked := unnamed thread member
    rw [submits, Option.all_some] at checked
    exact unnamed_of_namesNone checked
  · rintro signature first second ⟨_, _, up, _⟩ ⟨_, _, up', _⟩
    exact (one first (mem_drawnForSessions up)).trans (one second (mem_drawnForSessions up')).symm

/-- A session is paid by one transfer and a manual verification is given another, for the
second time: at the first the transfer had not landed. -/
theorem signatures_distinct_meetup :
    ∃ cfg : Service, cfg.world.checkouts.length = 2 ∧ (∀ row ∈ cfg.world.checkouts, row.status = .paid) ∧
      SignaturesDistinct cfg.world.checkouts := by
  obtain ⟨cfg, run, done⟩ := run_meets (machine Mainnet.platform) (paysApart Mainnet.platform Mainnet.uuid1)
    (.arrive (Mainnet.manualVerify Mainnet.signatureText1) :: Mainnet.steps 0 3 "" ++
      .event (.land (Mainnet.landed Mainnet.signature1 [])) ::
      .arrive Mainnet.createInvoice :: Mainnet.steps 1 6 Mainnet.uuid1 ++
      .arrive (Mainnet.confirm Mainnet.uuid1 Mainnet.signatureText2) :: Mainnet.steps 2 8 "" ++
      .arrive (Mainnet.manualVerify Mainnet.signatureText1) :: Mainnet.steps 3 6 Mainnet.uuid2)
    (Mainnet.opening [Mainnet.landed Mainnet.signature2 [Mainnet.uuid1]])
    (fun cfg => cfg.world.checkouts.length = 2 && cfg.world.checkouts.all (·.isPaid)) (by decide +kernel)
  simp only [Bool.and_eq_true, decide_eq_true_eq, List.all_eq_true, CheckoutRow.isPaid] at done
  refine ⟨cfg, done.1, done.2, signatures_distinct (Mainnet.opening_fresh _) (run.mono fun _ _ pays => ?_)⟩
  exact paymentsApart_of_paysApart pays

/-- One transfer, submitted twice to manual verification by complete requests one after
the other, pays two checkouts. -/
theorem one_payment_two_checkouts :
    ∃ cfg : Service, (machine Mainnet.platform).Reaches
        (fun cfg label => oneAtATime cfg label = true)
        (Mainnet.opening [Mainnet.landed Mainnet.signature1 []]) cfg ∧
      idle cfg = true ∧ ¬ SignaturesDistinct cfg.world.checkouts := by
  obtain ⟨cfg, run, done⟩ := run_meets (machine Mainnet.platform) oneAtATime
    (.arrive (Mainnet.manualVerify Mainnet.signatureText1) :: Mainnet.steps 0 6 Mainnet.uuid1 ++
      .arrive (Mainnet.manualVerify Mainnet.signatureText1) :: Mainnet.steps 1 6 Mainnet.uuid2)
    (Mainnet.opening [Mainnet.landed Mainnet.signature1 []])
    (fun cfg => idle cfg && !decide (SignaturesDistinct cfg.world.checkouts)) (by decide +kernel)
  simp only [Bool.and_eq_true, Bool.not_eq_true', decide_eq_false_iff_not] at done
  exact ⟨cfg, run, done⟩

end Meetup

end Payknot
