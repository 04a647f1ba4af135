import Payknot.Receipts
import Payknot.SessionStates

/-! Cancelled sessions of the legacy checkout. A reference is checked after trimming and in
every spelling that reads as a UUID; the deletes run on the text as it came and drop their
errors. Of the three it is the deleted hash alone that keeps the finalisers out. -/
namespace Payknot
open GoText Interleaving Machine

variable {p : Platform} {init cfg after : Service} {label : ServiceLabel} {reference : String} {place : Nat}

/-- `uuid.Parse` followed by `String`. -/
structure UUIDTexts (p : Platform) where
  read : String → Option String
  parses : ∀ text, (read text).isSome = p.uuidParse text

def PaidFor (w : World) (reference : String) : Prop :=
  ∃ row ∈ w.checkouts, row.reference = reference ∧ row.status = .paid

/-- What `finalizePaidCheckout` ends with. -/
def PaysReference (reference : String) (op : Op) : Prop :=
  ∃ checkout, op = .sql (.upsertPaidCheckout checkout) ∧ checkout.reference = reference

def WritesHash (reference : String) (op : Op) : Prop :=
  ∃ hash, op = .redis (.hSet (redisKey reference) hash)

/-- The session exists: the request that drew its reference is past writing the hash. -/
def Issued (cfg : Service) (reference : String) : Prop :=
  ∃ thread ∈ cfg.threads, thread.request.opensSession = true ∧ thread.log.Saw .newUUID reference ∧
    ¬ thread.program.May (WritesHash reference)

/-- Nobody finds the hash any more, and whoever has found it pays nothing. -/
structure Withdrawn (cfg : Service) (reference : String) : Prop where
  issued : Issued cfg reference
  cache : ∀ cached ∈ cfg.world.cache, cached.key ≠ redisKey reference
  readers : ∀ thread ∈ cfg.threads, ∀ hash,
    thread.log.Saw (.redis (.hGetAll (redisKey reference))) (.ok (some hash)) →
    ¬ thread.program.May (PaysReference reference)

/-- At its DEL the request at `place` names the session by the very text of its reference
and the command does not fail, or no hash is there to delete; and no other request that
has read the hash may still pay. -/
def DeletesInvoice (place : Nat) (reference : String) (cfg : Service) (label : ServiceLabel) : Prop :=
  ∀ choice thread raw, label = .step place choice →
    Performs cfg label place thread (.redis (.del (redisKey raw))) →
    Issued cfg reference ∧
    ((raw = reference ∧ choice.fault = none) ∨ ∀ cached ∈ cfg.world.cache, cached.key ≠ redisKey reference) ∧
    Others cfg place fun other => ∀ hash,
      other.log.Saw (.redis (.hGetAll (redisKey reference))) (.ok (some hash)) →
      ¬ other.program.May (PaysReference reference)

/-- The request at `place` is a cancel of the session, answered with 200. -/
def InvoiceCancelled (texts : UUIDTexts p) (cfg : Service) (place : Nat) (reference : String) : Prop :=
  ∃ thread r req, cfg.threads[place]? = some thread ∧ thread.request = .cancelInvoice r ∧ r.body = some req ∧
    texts.read (trimSpace req.reference) = some reference ∧ thread.program = .ret (.responded 200 .empty)

section Answers

def DeletesAnswer (request : Request) (log : History) (answer : Answer) : Prop :=
  ∀ r, request = .cancelInvoice r → answer = .responded 200 .empty → ∃ req reply, r.body = some req ∧
    log.Saw (.redis (.del (redisKey req.reference))) reply

theorem cancelInvoice_answers (r : HttpRequest ReferenceRequest) :
    (cancelCheckoutInvoice p r).Along (fun _ _ => True) (DeletesAnswer (.cancelInvoice r)) [] := by
  unfold cancelCheckoutInvoice
  by_cases posted : r.method = .post
  · cases body : r.body with
    | none => simp [posted, httpError, DeletesAnswer]
    | some req =>
        by_cases valid : isValidReference p (trimSpace req.reference) = true
        · simp only [posted, valid, ne_eq, not_true_eq_false, if_false, Bool.not_true, Bool.false_eq_true,
            along_sql, along_redis, true_and, Program.along_pure]
          rintro _ _ reply _ ⟨⟩ _
          exact ⟨req, reply, body, List.mem_cons_self⟩
        · simp [posted, valid, httpError, DeletesAnswer]
  · simp [posted, httpError, DeletesAnswer]

theorem deletes_answer (request : Request) :
    (handler p request).Along (fun _ _ => True) (DeletesAnswer request) [] := by
  cases request with
  | cancelInvoice r => exact cancelInvoice_answers r
  | _ => exact (Program.along_grows _ _).mono (fun _ _ _ => trivial) (by simp [DeletesAnswer])

end Answers

section Keeping

theorem Issued.next (issued : Issued cfg reference) (stepped : (machine p).next cfg label = some after) :
    Issued after reference := by
  obtain ⟨thread, member, opens, drew, past⟩ := issued
  obtain ⟨index, at_index⟩ := List.mem_iff_getElem?.mp member
  obtain ⟨current, found, same, grown⟩ := thread_kept stepped at_index
  refine ⟨current, List.mem_of_getElem? found, same ▸ opens, drew.mono grown, ?_⟩
  rcases thread_after stepped found with old | ⟨request, _, _, nobody⟩ |
    ⟨choice, stepping, op, rest, reply, _, at_place, program, _, rfl⟩
  · rw [at_index, Option.some.injEq] at old
    exact old ▸ past
  · rw [at_index] at nobody
    cases nobody
  · rw [at_index, Option.some.injEq] at at_place
    subst at_place
    intro may
    apply past
    rw [program]
    exact .inr ⟨reply, may⟩

-- The request that drew a reference is the only one that may write its hash.
theorem Issued.unwritten (held : Provenance p init cfg) (issued : Issued cfg reference) {thread : ServiceThread}
    (present : thread ∈ cfg.threads) (hash : InvoiceHash) :
    ¬ thread.Issues (.redis (.hSet (redisKey reference) hash)) := by
  intro suspended
  obtain ⟨_, _, other, _, _, _, _, drew, keyed, _⟩ := held.careful.issues present suspended
  rw [← redisKey_injective keyed] at drew
  obtain ⟨opener, member, _, first, past⟩ := issued
  obtain ⟨i, at_i⟩ := List.mem_iff_getElem?.mp present
  obtain ⟨j, at_j⟩ := List.mem_iff_getElem?.mp member
  have same := held.sole i j thread opener reference at_i at_j drew first
  subst same
  rw [at_i, Option.some.injEq] at at_j
  subst at_j
  obtain ⟨rest, program⟩ := suspended
  apply past
  rw [program]
  exact .inl ⟨hash, rfl⟩

variable (held : Provenance p init cfg) (withdrawn : Withdrawn cfg reference)
include held withdrawn

theorem Withdrawn.cache_next (stepped : (machine p).next cfg label = some after) :
    ∀ cached ∈ after.world.cache, cached.key ≠ redisKey reference := by
  intro cached member
  rcases next_cases stepped with ⟨request, rfl, rfl⟩ | ⟨event, world, rfl, occurred, rfl⟩ |
    ⟨index, choice, thread, op, rest, reply, world, rfl, at_index, program, executed, same⟩
  · exact withdrawn.cache cached member
  · exact withdrawn.cache cached (occur_cache occurred member)
  · rw [same] at member
    rcases exec_cache executed with unchanged | ⟨key, hash, rfl, stored⟩ | ⟨key, ttl, rfl, dated⟩ |
      ⟨key, rfl, removed⟩
    · rw [unchanged] at member
      exact withdrawn.cache cached member
    · rw [stored] at member
      rcases List.mem_cons.mp member with rfl | older
      · rintro rfl
        exact withdrawn.issued.unwritten held (List.mem_of_getElem? at_index) hash ⟨rest, program⟩
      · exact withdrawn.cache cached (List.mem_filter.mp older).1
    · rw [dated] at member
      obtain ⟨before, among, ⟨_, rfl⟩ | ⟨_, rfl⟩⟩ := mem_updateWhere member
      · exact withdrawn.cache before among
      · exact withdrawn.cache cached among
    · rw [removed] at member
      exact withdrawn.cache cached (List.mem_filter.mp member).1

theorem Withdrawn.next (stepped : (machine p).next cfg label = some after) : Withdrawn after reference where
  issued := withdrawn.issued.next stepped
  cache := withdrawn.cache_next held stepped
  readers := by
    intro current member hash saw
    obtain ⟨index, found⟩ := List.mem_iff_getElem?.mp member
    rcases thread_after stepped found with old | ⟨request, _, rfl, _⟩ |
      ⟨choice, thread, op, rest, reply, rfl, at_index, program, executed, rfl⟩
    · exact withdrawn.readers current (List.mem_of_getElem? old) hash saw
    · exact absurd saw (by simp [Log.Saw])
    · rcases List.mem_cons.mp saw with here | earlier
      · cases here
        obtain ⟨cached, among, same⟩ := cached_of_read (p := p) executed
        exact absurd same (withdrawn.cache cached among)
      · intro may
        apply withdrawn.readers thread (List.mem_of_getElem? at_index) hash earlier
        rw [program]
        exact .inr ⟨reply, may⟩

theorem Withdrawn.unpaying {thread : ServiceThread} (present : thread ∈ cfg.threads) {checkout : PaidCheckout}
    (same : checkout.reference = reference) : ¬ thread.Issues (.sql (.upsertPaidCheckout checkout)) := by
  intro suspended
  obtain ⟨earlier, logged, finalises⟩ := held.careful.issues present suspended
  obtain ⟨stored, agreed, _⟩ := finalises.agreed
  have grown : earlier <:+ thread.log := logged ▸ List.suffix_cons _ _
  have read := agreed.read.mono grown
  rw [same] at read
  obtain ⟨rest, program⟩ := suspended
  apply withdrawn.readers thread present stored read
  rw [program]
  exact .inl ⟨checkout, rfl, same⟩

-- A manual verification has drawn another reference.
theorem Withdrawn.unverified {thread : ServiceThread} (present : thread ∈ cfg.threads) {checkout : PaidCheckout}
    (same : checkout.reference = reference) : ¬ thread.Issues (.sql (.insertPaidCheckout checkout)) := by
  intro suspended
  obtain ⟨manual, _, _, drew, _⟩ := held.careful.issues present suspended
  rw [same] at drew
  obtain ⟨opener, member, opens, first, _⟩ := withdrawn.issued
  obtain ⟨i, at_i⟩ := List.mem_iff_getElem?.mp present
  obtain ⟨j, at_j⟩ := List.mem_iff_getElem?.mp member
  have together := held.sole i j thread opener reference at_i at_j drew first
  subst together
  rw [at_i, Option.some.injEq] at at_j
  subst at_j
  generalize thread.request = request at manual opens
  cases request with
  | manualVerify r => cases opens
  | _ => cases manual

theorem Withdrawn.paid_next (stepped : (machine p).next cfg label = some after)
    (paid : PaidFor after.world reference) : PaidFor cfg.world reference := by
  obtain ⟨row, member, named, is_paid⟩ := paid
  rcases next_cases stepped with ⟨request, rfl, rfl⟩ | ⟨event, world, rfl, occurred, rfl⟩ |
    ⟨index, choice, thread, op, rest, reply, world, rfl, at_index, program, executed, same⟩
  · exact ⟨row, member, named, is_paid⟩
  · have unchanged := occur_frame .checkouts occurred (by decide)
    rw [unchanged] at member
    exact ⟨row, member, named, is_paid⟩
  · rw [same] at member
    have present := List.mem_of_getElem? at_index
    have suspended : thread.Issues op := ⟨rest, program⟩
    rcases exec_checkouts executed with unchanged | ⟨checkout, data, rfl, _, _, written⟩ |
      ⟨checkout, data, issued, _, _, added⟩ | ⟨text, rfl, removed⟩ | ⟨id, signature, sender, rfl, marked⟩ |
      ⟨id, rfl, marked⟩ | ⟨id, ownerEmail, rfl, removed⟩
    · rw [unchanged] at member
      exact ⟨row, member, named, is_paid⟩
    · rw [written] at member
      obtain ⟨old, among, ⟨chosen, rfl⟩ | ⟨_, rfl⟩⟩ := mem_updateWhere member
      · have pays : checkout.reference = reference := (by simpa using chosen : old.reference = _).symm.trans named
        exact absurd suspended (withdrawn.unpaying held present pays)
      · exact ⟨row, among, named, is_paid⟩
    · rw [added] at member
      rcases List.mem_append.mp member with older | newest
      · exact ⟨row, older, named, is_paid⟩
      · rw [List.mem_singleton] at newest
        subst newest
        rcases issued with rfl | rfl
        · exact absurd suspended (withdrawn.unpaying held present named)
        · exact absurd suspended (withdrawn.unverified held present named)
    · rw [removed] at member
      exact ⟨row, (List.mem_filter.mp member).1, named, is_paid⟩
    · obtain ⟨_, rows, listed, read, among, _⟩ := held.careful.issues present suspended
      exact absurd among (held.nothing_recoverable present read)
    · obtain ⟨_, rows, listed, read, among, _⟩ := held.careful.issues present suspended
      exact absurd among (held.nothing_recoverable present read)
    · rw [removed] at member
      exact ⟨row, (List.mem_filter.mp member).1, named, is_paid⟩

end Keeping

section Cancelling

theorem withdrawn_of_del (careful : Warranted p cfg) (deletes : DeletesInvoice place reference cfg label)
    {choice : Choice} {thread : ServiceThread} {raw : String} {rest : Reply (.redis (.del (redisKey raw))) → Handler Answer}
    {reply : Reply (.redis (.del (redisKey raw)))} {r : HttpRequest ReferenceRequest} (moves : label = .step place choice)
    (at_place : cfg.threads[place]? = some thread) (program : thread.program = .call (.redis (.del (redisKey raw))) rest)
    (cancels : thread.request = .cancelInvoice r)
    (executed : exec p choice (.redis (.del (redisKey raw))) cfg.world = some (reply, after.world))
    (stepped : (machine p).next cfg label = some after)
    (resumed : after.threads[place]? = some (thread.resumed _ reply rest)) : Withdrawn after reference := by
  obtain ⟨issued, absent, others⟩ := deletes choice thread raw moves ⟨⟨choice, moves⟩, at_place, rest, program⟩
  refine ⟨issued.next stepped, ?_, ?_⟩
  · intro cached member
    rcases absent with ⟨rfl, sound⟩ | never
    · rw [exec_del executed sound] at member
      simpa using (List.mem_filter.mp member).2
    · rcases exec_redis executed with ⟨_, _, unchanged⟩ | ⟨_, _, ran⟩
      · rw [unchanged] at member
        exact never cached member
      · simp only [Redis.run, Except.ok.injEq, Prod.mk.injEq] at ran
        rw [← ran.2] at member
        exact never cached (List.mem_filter.mp member).1
  · intro current member hash saw
    obtain ⟨index, found⟩ := List.mem_iff_getElem?.mp member
    by_cases own : index = place
    · -- A cancel finalises nothing.
      subst own
      rw [resumed, Option.some.injEq] at found
      subst found
      intro may
      obtain ⟨_, _, _, ⟨checkout, rfl, _⟩, issues⟩ :=
        ((warranted_next careful stepped) _ (List.mem_of_getElem? resumed)).may may
      obtain ⟨_, _, finalises⟩ := issues
      obtain ⟨_, agreed, _⟩ := finalises.agreed
      have other : (thread.resumed _ reply rest).request = .cancelInvoice r := cancels
      rcases agreed.terms with ⟨legacy, _⟩ | ⟨v1, _⟩
      · rw [other] at legacy
        cases legacy
      · rw [other] at v1
        cases v1
    · rcases thread_after stepped found with old | ⟨request, _, rfl, _⟩ | ⟨_, _, _, _, _, same, _, _, _, _⟩
      · exact others index current own old hash saw
      · exact absurd saw (by simp [Log.Saw])
      · rw [moves] at same
        cases same
        exact absurd rfl own

def Withdraws (cfg : Service) (place : Nat) (reference : String) : Prop :=
  ∀ thread r req reply, cfg.threads[place]? = some thread → thread.request = .cancelInvoice r → r.body = some req →
    thread.log.Saw (.redis (.del (redisKey req.reference))) reply → Withdrawn cfg reference

theorem Withdraws.next (held : Provenance p init cfg) (withdraws : Withdraws cfg place reference)
    (deletes : DeletesInvoice place reference cfg label) (stepped : (machine p).next cfg label = some after) :
    Withdraws after place reference := by
  intro current r req reply found cancels body saw
  rcases saw_after stepped found saw with ⟨thread, old, same, earlier⟩ |
    ⟨choice, thread, rest, moves, at_place, program, executed, rfl⟩
  · exact (withdraws thread r req reply old (same.trans cancels) body earlier).next held stepped
  · exact withdrawn_of_del held.careful deletes moves at_place program cancels executed stepped found

/-- A cancelled session stays unpaid for good, for every interleaving and any failures, if
the cancel's DEL met its hash. -/
theorem cancelled_invoice_unpaid (texts : UUIDTexts p) (fresh : Fresh init) {mid last : Service}
    (before : (machine p).Reaches (DeletesInvoice place reference) init mid)
    (answered : InvoiceCancelled texts mid place reference) (since : (machine p).Reaches anyStep mid last) :
    (PaidFor last.world reference → PaidFor mid.world reference) ∧
      ∀ thread ∈ last.threads, ∀ checkout, checkout.reference = reference →
        ¬ thread.Issues (.sql (.upsertPaidCheckout checkout)) := by
  have reached := before.invariant
    (fun cfg => Provenance p init cfg ∧ Disciplined (fun _ _ _ => True) DeletesAnswer cfg ∧ Withdraws cfg place reference)
    ⟨fresh.provenance, by simp [Disciplined, fresh.threads], by simp [Withdraws, fresh.threads]⟩
    fun _ _ _ both deletes stepped => ⟨both.1.next stepped, disciplined_next deletes_answer both.2.1 stepped,
      both.2.2.next both.1 deletes stepped⟩
  obtain ⟨thread, r, req, at_place, cancels, body, _, ended⟩ := answered
  obtain ⟨other, reply, also, deleted⟩ :=
    reached.2.1.ends (List.mem_of_getElem? at_place) ended r cancels rfl
  rw [body, Option.some.injEq] at also
  subst also
  have withdrawn := reached.2.2 thread r req reply at_place cancels body deleted
  have kept := since.invariant
    (fun cfg => Provenance p init cfg ∧ Withdrawn cfg reference ∧
      (PaidFor cfg.world reference → PaidFor mid.world reference))
    ⟨reached.1, withdrawn, id⟩
    fun _ _ _ held _ stepped => ⟨held.1.next stepped, held.2.1.next held.1 stepped,
      fun paid => held.2.2 (held.2.1.paid_next held.1 stepped paid)⟩
  exact ⟨kept.2.2, fun _ present _ same => kept.2.1.unpaying kept.1 present same⟩

def issuedBy (reference : String) (thread : ServiceThread) : Bool :=
  thread.request.opensSession && (thread.program.finished && thread.log.any fun
    | ⟨.newUUID, uuid⟩ => uuid = reference
    | _ => false)

/-- The DEL of the request at `place` is on the reference and does not fail. -/
def deletesReference (place : Nat) (reference : String) (cfg : Service) (label : ServiceLabel) : Bool :=
  match label, Machine.performed cfg label with
  | .step index choice, some (.redis (.del key)) =>
      index ≠ place || (cfg.threads.any (issuedBy reference) && (key = redisKey reference && choice.fault.isNone))
  | _, _ => true

theorem issued_of_any (issued : cfg.threads.any (issuedBy reference) = true) : Issued cfg reference := by
  obtain ⟨thread, member, issued⟩ := List.any_eq_true.mp issued
  simp only [issuedBy, Bool.and_eq_true, List.any_eq_true] at issued
  obtain ⟨opens, ended, ⟨op, uuid⟩, among, drew⟩ := issued
  cases op with
  | newUUID =>
      have same : uuid = reference := by simpa using drew
      exact ⟨thread, member, opens, same ▸ among, Program.May.of_finished ended⟩
  | _ => cases drew

theorem deletesInvoice_alone (one : AtMostOneBusy cfg) (deletes : deletesReference place reference cfg label = true) :
    DeletesInvoice place reference cfg label := by
  rintro choice thread raw rfl performs
  simp only [deletesReference, performs.performed, ne_eq, not_true_eq_false, decide_false, Bool.false_or,
    Bool.and_eq_true, decide_eq_true_eq, Option.isNone_iff_eq_none] at deletes
  obtain ⟨issued, same, sound⟩ := deletes
  refine ⟨issued_of_any issued, .inl ⟨redisKey_injective same, sound⟩, ?_⟩
  intro j other elsewhere at_j _ _
  exact Program.May.of_finished (one.others performs j other elsewhere at_j)

def answersInvoiceCancel (texts : UUIDTexts p) (reference : String) : ServiceThread → Bool
  | ⟨.cancelInvoice r, _, .ret (.responded 200 .empty)⟩ =>
      r.body.any fun req => texts.read (trimSpace req.reference) = some reference
  | _ => false

theorem invoiceCancelled_of_any {texts : UUIDTexts p}
    (answers : cfg.threads[place]?.any (answersInvoiceCancel texts reference) = true) :
    InvoiceCancelled texts cfg place reference := by
  obtain ⟨thread, at_place, answers⟩ := (Option.any_eq_true _ _).mp answers
  unfold answersInvoiceCancel at answers
  split at answers
  · obtain ⟨req, body, read⟩ := (Option.any_eq_true _ _).mp answers
    exact ⟨_, _, req, at_place, rfl, body, by simpa using read, rfl⟩
  · cases answers

end Cancelling

section Meetup
open Mainnet

/-- The canonical text of a UUID in one of the spellings `uuid.Parse` takes. -/
def uuidString (text : String) : String :=
  let runes := text.toList
  let digits := if runes.length = 45 then runes.drop 9
    else if runes.length = 38 then (runes.drop 1).take 36 else runes
  dashed ((digits.filter isHex).map Char.toLower)

def uuidTexts : UUIDTexts platform where
  read text := if uuidParse text then some (uuidString text) else none
  parses text := by
    show _ = uuidParse text
    cases uuidParse text <;> rfl

def cancelInvoice (text : String) : Request := .cancelInvoice ⟨.post, some ⟨text⟩⟩

/-- A cancel by the very text of the reference, then a payment for the session. -/
theorem cancelled_invoice_unpaid_meetup : ∃ mid last : Service, InvoiceCancelled uuidTexts mid 1 uuid1 ∧
    mid.threads.length < last.threads.length ∧ ¬ PaidFor last.world uuid1 := by
  let allowed (cfg : Service) (label : ServiceLabel) := oneAtATime cfg label && deletesReference 1 uuid1 cfg label
  obtain ⟨mid, run, done⟩ := run_meets (machine platform) allowed
    (.arrive createInvoice :: steps 0 6 uuid1 ++ .arrive (cancelInvoice uuid1) :: steps 1 3 "")
    (opening [landed signature1 [uuid1]])
    (fun mid => mid.world.checkouts.isEmpty && (mid.threads[1]?.any (answersInvoiceCancel uuidTexts uuid1) &&
      ((machine platform).run (fun _ _ => true) (.arrive (confirm uuid1 signatureText1) :: steps 2 1 "") mid).any
        fun last => mid.threads.length < last.threads.length)) (by decide +kernel)
  simp only [allowed, Bool.and_eq_true, List.isEmpty_iff] at run done
  obtain ⟨empty, answers, later⟩ := done
  obtain ⟨last, since, more⟩ := run_meets (machine platform) (fun _ _ => true) _ mid _ later
  have before := (run.alone (by simp [AtMostOneBusy, opening])).1.mono
    fun _ _ meets => deletesInvoice_alone meets.1 meets.2
  have answered := invoiceCancelled_of_any answers
  have kept := cancelled_invoice_unpaid uuidTexts (opening_fresh _) before answered since.any
  refine ⟨mid, last, answered, by simpa using more, fun paid => ?_⟩
  obtain ⟨row, member, _⟩ := kept.1 paid
  rw [empty] at member
  cases member

/-- A complete request none of whose statements and commands fails. -/
def smooth (cfg : Service) (label : ServiceLabel) : Bool := oneAtATime cfg label && stepSucceeds platform cfg label

/-- The session is opened, cancelled under `text` and then confirmed. -/
def paidAfterCancel (text : String) : Bool :=
  ((machine platform).run smooth
      (.arrive createInvoice :: steps 0 6 uuid1 ++ .arrive (cancelInvoice text) :: steps 1 3 "")
      (opening [landed signature1 [uuid1]])).any fun mid =>
    mid.threads[1]?.any (answersInvoiceCancel uuidTexts uuid1) && (mid.world.checkouts.isEmpty &&
      ((machine platform).run smooth (.arrive (confirm uuid1 signatureText1) :: steps 2 8 "") mid).any fun last =>
        last.world.checkouts.any fun row => row.reference = uuid1 && row.isPaid)

/-- In another spelling, and with a blank behind it, the reference is cancelled with 200
and nothing is deleted: the session is confirmed afterwards. -/
theorem cancelled_invoice_paid : ∃ mid last : Service,
    (machine platform).Reaches (fun cfg label => smooth cfg label = true) (opening [landed signature1 [uuid1]]) mid ∧
    InvoiceCancelled uuidTexts mid 1 uuid1 ∧ ¬ PaidFor mid.world uuid1 ∧
    (machine platform).Reaches (fun cfg label => smooth cfg label = true) mid last ∧ PaidFor last.world uuid1 := by
  have paid : paidAfterCancel ("urn:uuid:" ++ uuid1 ++ " ") = true := by decide +kernel
  obtain ⟨mid, run, done⟩ := run_meets (machine platform) smooth _ _ _ paid
  simp only [Bool.and_eq_true, List.isEmpty_iff] at done
  obtain ⟨answers, empty, later⟩ := done
  obtain ⟨last, since, done⟩ := run_meets (machine platform) smooth _ mid _ later
  obtain ⟨row, member, row_paid⟩ := List.any_eq_true.mp done
  refine ⟨mid, last, run, invoiceCancelled_of_any answers, ?_, since, row, member, ?_⟩
  · rintro ⟨row, member, _⟩
    rw [empty] at member
    cases member
  · simpa [CheckoutRow.isPaid] using row_paid

end Meetup
end Payknot
