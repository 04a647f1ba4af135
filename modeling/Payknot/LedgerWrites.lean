import Payknot.History

/-! The ledger writes of one request. A finaliser marks the invoice paid and the checkout right
after it, a failed confirmation writes its error into the invoice, and nobody writes twice. -/
namespace Payknot
open GoText Interleaving Machine

variable {p : Platform} {cfg after : Service} {label : ServiceLabel}

/-- The reference whose row in one of the two ledgers the operation writes. -/
def Op.ledgerReference : Op → Option String
  | .sql (.upsertPaidInvoice _ reference _ _) => some reference
  | .sql (.upsertErrorInvoice _ reference _ _ _) => some reference
  | .sql (.upsertPaidCheckout checkout) => some checkout.reference
  | _ => none

def Writes (reference : String) (op : Op) : Prop := op.ledgerReference = some reference

def HashRead (log : History) (reference : String) : Prop :=
  ∃ hash, log.Saw (.redis (.hGetAll (redisKey reference))) (.ok (some hash))

theorem HashRead.mono {log later : History} {reference : String} (read : HashRead log reference)
    (grown : log <:+ later) : HashRead later reference := by
  obtain ⟨hash, saw⟩ := read
  exact ⟨hash, saw.mono grown⟩

def Entry.readsHash (key : String) : Entry Reply → Bool
  | ⟨.redis (.hGetAll asked), .ok (some _)⟩ => asked = key
  | _ => false

theorem HashRead.any {log : History} {reference : String} (read : HashRead log reference) :
    log.any (Entry.readsHash (redisKey reference)) = true := by
  obtain ⟨hash, saw⟩ := read
  exact List.any_eq_true.mpr ⟨_, saw, by simp [Entry.readsHash]⟩

inductive Progress where
  | unwritten
  | between (reference : String)
  | written

def progress : History → Progress
  | [] => .unwritten
  | entry :: earlier =>
      match entry with
      | ⟨.sql (.upsertPaidInvoice _ reference _ _), .ok _⟩ => .between reference
      | ⟨op, _⟩ => if op.ledgerReference.isSome then .written else progress earlier

section Turns
variable {log : History} {op : Op} {Result : Type}

theorem progress_quiet (quiet : op.ledgerReference = none) (reply : Reply op) (log : History) :
    progress (⟨op, reply⟩ :: log) = progress log := by
  cases op with
  | sql statement => cases statement <;> first | rfl | cases quiet
  | _ => rfl

def Outside (log : History) : Prop := ∀ reference, progress log ≠ .between reference

theorem Outside.of_unwritten (unwritten : progress log = .unwritten) : Outside log := by
  intro reference
  rw [unwritten]
  simp

theorem Outside.of_written (written : progress log = .written) : Outside log := by
  intro reference
  rw [written]
  simp

theorem Outside.of_same {later : History} (outside : Outside log) (same : progress later = progress log) :
    Outside later := by
  intro reference
  rw [same]
  exact outside reference

@[simp] theorem outside_nil : Outside [] := Outside.of_unwritten rfl

@[simp] theorem outside_redis (command : Redis) (reply : Reply (.redis command)) (log : History) :
    Outside (⟨.redis command, reply⟩ :: log) ↔ Outside log := Iff.rfl

@[simp] theorem outside_checkout (checkout : PaidCheckout) (reply : Reply (.sql (.upsertPaidCheckout checkout)))
    (log : History) : Outside (⟨.sql (.upsertPaidCheckout checkout), reply⟩ :: log) := Outside.of_written rfl

/-- The order of the writes: an error follows a read, the checkout follows the invoice at once,
and nothing follows these. -/
def InTurn (log : History) (op : Op) : Prop :=
  match progress log with
  | .unwritten => (∀ checkout, op ≠ .sql (.upsertPaidCheckout checkout)) ∧
      ∀ walletAddress reference signature amount errReason,
        op = .sql (.upsertErrorInvoice walletAddress reference signature amount errReason) → HashRead log reference
  | .between reference => ∃ checkout, op = .sql (.upsertPaidCheckout checkout) ∧ checkout.reference = reference
  | .written => op.ledgerReference = none

theorem inTurn_quiet (quiet : op.ledgerReference = none) (outside : Outside log) : InTurn log op := by
  unfold InTurn
  split
  · refine ⟨?_, ?_⟩
    · rintro checkout rfl
      cases quiet
    · rintro _ _ _ _ _ rfl
      cases quiet
  · next reference here => exact absurd here (outside reference)
  · exact quiet

abbrev Turns (log : History) (program : Handler Result) : Prop :=
  program.Along InTurn (fun after _ => Outside after) log

abbrev Quiet (log : History) (program : Handler Result) : Prop :=
  program.Along (fun _ op => op.ledgerReference = none) (fun _ _ => True) log

theorem Quiet.keeps {program : Handler Result} (quiet : Quiet log program) (outside : Outside log) :
    program.Along InTurn (fun after _ => progress after = progress log) log := by
  have kept : program.Along (fun after _ => progress after = progress log)
      (fun after _ => True ∧ progress after = progress log) log :=
    Program.Along.keeps quiet rfl fun after op reply silent same => (progress_quiet silent reply after).trans same
  refine (quiet.and kept).mono (fun after op both => ?_) fun _ _ both => both.2.2
  exact inTurn_quiet both.1 (outside.of_same both.2)

theorem Quiet.turns {program : Handler Result} (quiet : Quiet log program) (outside : Outside log) :
    Turns log program := by
  exact (quiet.keeps outside).mono (fun _ _ turn => turn) fun _ _ same => outside.of_same same

-- What is warranted for any request writes no ledger.
theorem ledgerReference_none {request : Request} (issues : Issues p request log op)
    (other : request.isLegacyFinaliser = false ∧ request.isV1Finaliser = false) : op.ledgerReference = none := by
  have outsider {log : History} {checkout : PaidCheckout} (finalises : Finalises p request log checkout) : False := by
    obtain ⟨_, agreed, _⟩ := finalises.agreed
    rcases agreed.terms with ⟨legacy, _⟩ | ⟨v1, _⟩
    · exact Bool.noConfusion (other.1.symm.trans legacy)
    · exact Bool.noConfusion (other.2.symm.trans v1)
  cases op with
  | sql statement =>
      cases statement with
      | upsertPaidInvoice walletAddress reference signature amount =>
          obtain ⟨checkout, finalises, _⟩ := issues
          exact (outsider finalises).elim
      | upsertPaidCheckout checkout =>
          obtain ⟨earlier, _, finalises⟩ := issues
          exact (outsider finalises).elim
      | upsertErrorInvoice walletAddress reference signature amount errReason =>
          exact Bool.noConfusion (other.1.symm.trans issues)
      | _ => rfl
  | _ => rfl

theorem quiet_of_along (p : Platform) {program : Handler Result} {done : History → Result → Prop}
    (along : program.Along (Issues p .recoverErrorInvoices) done log) : Quiet log program :=
  along.mono (fun _ _ issues => ledgerReference_none issues ⟨rfl, rfl⟩) fun _ _ _ => trivial

-- The one place where an invoice is marked paid.
theorem turns_finalizePaidCheckout (reference signature : String) (invoiceData : InvoiceHash)
    (amount : Int64) (unwritten : progress log = .unwritten) :
    Turns log (finalizePaidCheckout p reference signature invoiceData amount) := by
  have outside := Outside.of_unwritten unwritten
  unfold Turns finalizePaidCheckout
  generalize parseInt invoiceData.eventId = event
  cases event with
  | error text => simpa using outside
  | ok eventID =>
      dsimp only
      generalize orDefault invoiceData.participantData "\x7b\x7d" = data
      generalize orDefault invoiceData.walletAddress "unknown_wallet" = walletAddress
      generalize orDefault invoiceData.paymentMethod "wallet" = paymentMethod
      refine ((quiet_of_along p (along_checkEmail eventID (some reference) _)).keeps outside).sequence
        fun after result _ same => ?_
      rw [unwritten] at same
      cases result with
      | error text =>
          rw [Program.along_pure]
          exact Outside.of_unwritten same
      | ok _ =>
          simp only [along_sql]
          refine ⟨?_, ?_⟩
          · unfold InTurn
            rw [same]
            simp
          · rintro (fault | _)
            · rw [Program.along_pure]
              exact Outside.of_written rfl
            · simp only [along_sql]
              refine ⟨⟨_, rfl, rfl⟩, ?_⟩
              rintro (fault | _) <;> simp

/-- Whatever follows the writes of a payment in silence keeps the order. -/
theorem turns_finalised (reference signature : String) (invoiceData : InvoiceHash) (amount : Int64)
    (unwritten : progress log = .unwritten) {next : Except String Unit → Handler Answer}
    (silent : ∀ result after, Quiet after (next result)) :
    Turns log (finalizePaidCheckout p reference signature invoiceData amount >>= next) :=
  (turns_finalizePaidCheckout reference signature invoiceData amount unwritten).sequence
    fun after result _ outside => (silent result after).turns outside

theorem quiet_settled (p : Platform) (reference : String) : Quiet log (do
    let _ ← redis (.del (redisKey reference))
    respondCheckoutStatus reference) := by
  simp only [Quiet, along_redis]
  exact ⟨rfl, fun _ => quiet_of_along p (along_respondCheckoutStatus reference)⟩

theorem turns_confirm (r : HttpRequest SignatureRequest) : Turns [] (confirmCheckoutPayment p r) := by
  unfold Turns confirmCheckoutPayment
  split
  · simp
  · split
    · split
      · simp
      · simp only [along_redis]
        refine ⟨inTurn_quiet rfl (by simp), ?_⟩
        rintro (fault | (_ | stored))
        · simp
        · simp
        · dsimp only
          generalize parseInt stored.amount = read
          cases read with
          | error text => simp
          | ok amount =>
              dsimp only
              split
              · simp
              · refine ((quiet_of_along p (along_verifyTransaction _ _ _ _)).keeps (by simp)).sequence
                  fun after verdict grown same => ?_
                have unwritten : progress after = .unwritten := same
                cases verdict with
                | panicked =>
                    rw [Program.along_pure]
                    exact Outside.of_unwritten unwritten
                | rejected text =>
                    simp only [along_sql]
                    refine ⟨?_, fun _ => (Program.along_pure _ _).mpr (Outside.of_written rfl)⟩
                    unfold InTurn
                    rw [unwritten]
                    refine ⟨by simp, ?_⟩
                    rintro _ _ _ _ _ ⟨⟩
                    exact ⟨stored, grown.subset List.mem_cons_self⟩
                | accepted sender =>
                    refine turns_finalised _ _ _ _ unwritten fun result after => ?_
                    cases result with
                    | error text => simp
                    | ok _ => exact quiet_settled p _
    · simp

theorem turns_recheckUnpaid (reference signature : String) (unwritten : progress log = .unwritten) :
    Turns log (recheckCheckoutPayment.unpaid p reference signature) := by
  have outside := Outside.of_unwritten unwritten
  unfold Turns recheckCheckoutPayment.unpaid
  simp only [along_redis]
  refine ⟨inTurn_quiet rfl outside, ?_⟩
  rintro (fault | (_ | stored))
  · simpa using outside
  · simpa using outside
  · dsimp only
    generalize parseInt stored.amount = read
    cases read with
    | error text => simpa using outside
    | ok amount =>
        dsimp only
        split
        · simpa using outside
        · split
          · simpa using outside
          · refine ((quiet_of_along p (along_verifyTransaction _ _ _ _)).keeps (by simpa using outside)).sequence
              fun after verdict _ same => ?_
            have unwritten : progress after = .unwritten := same.trans unwritten
            cases verdict with
            | panicked | rejected text =>
                rw [Program.along_pure]
                exact Outside.of_unwritten unwritten
            | accepted sender =>
                refine turns_finalised _ _ _ _ unwritten fun result after => ?_
                cases result with
                | error text => simp
                | ok _ => exact quiet_settled p _

theorem turns_recheck (r : HttpRequest SignatureRequest) : Turns [] (recheckCheckoutPayment p r) := by
  unfold Turns recheckCheckoutPayment
  split
  · simp
  · split
    · split
      · simp
      · simp only [along_sql]
        refine ⟨inTurn_quiet rfl (by simp), ?_⟩
        rintro (fault | (_ | row))
        · exact turns_recheckUnpaid _ _ rfl
        · exact turns_recheckUnpaid _ _ rfl
        · dsimp only
          split
          · exact (quiet_of_along p (along_respondCheckoutStatus _)).turns (Outside.of_unwritten rfl)
          · exact turns_recheckUnpaid _ _ rfl
    · simp

theorem turns_detectUnpaid (reference : String) (unwritten : progress log = .unwritten) :
    Turns log (detectCheckoutPayment.unpaid p reference) := by
  have outside := Outside.of_unwritten unwritten
  unfold Turns detectCheckoutPayment.unpaid
  simp only [along_redis]
  refine ⟨inTurn_quiet rfl outside, ?_⟩
  rintro (fault | (_ | stored))
  · simpa using outside
  · simpa using outside
  · dsimp only
    generalize parseInt stored.amount = read
    cases read with
    | error text => simpa using outside
    | ok amount =>
        dsimp only
        split
        · simpa using outside
        · refine ((quiet_of_along p (along_detectSignature _ _ _)).keeps (by simpa using outside)).sequence
            fun after verdict _ same => ?_
          have unwritten : progress after = .unwritten := same.trans unwritten
          cases verdict with
          | panicked | rejected text =>
              rw [Program.along_pure]
              exact Outside.of_unwritten unwritten
          | accepted found =>
              obtain ⟨signature, sender⟩ := found
              refine turns_finalised _ _ _ _ unwritten fun result after => ?_
              cases result with
              | error text => simp
              | ok _ => exact quiet_settled p _

theorem turns_detect (r : HttpRequest ReferenceRequest) : Turns [] (detectCheckoutPayment p r) := by
  unfold Turns detectCheckoutPayment
  split
  · simp
  · split
    · dsimp only
      split
      · simp
      · refine ((quiet_of_along p (along_getCheckoutStatus _)).keeps (by simp)).sequence fun after status _ same => ?_
        have unwritten : progress after = .unwritten := same
        cases status with
        | none => exact turns_detectUnpaid _ unwritten
        | some existing =>
            dsimp only
            split
            · rw [Program.along_pure]
              exact Outside.of_unwritten unwritten
            · exact turns_detectUnpaid _ unwritten
    · simp

theorem quiet_replayed (ownerEmail idemKey endpoint : String) : Quiet log (replayed ownerEmail idemKey endpoint) := by
  unfold Quiet replayed loadIdempotentResponse
  split
  · split
    · simp
    · simp only [along_sql]
      refine ⟨rfl, ?_⟩
      rintro (fault | (_ | content)) <;> simp
  · simp

theorem quiet_remember (ownerEmail idemKey endpoint : String) (payload : Content) :
    Quiet log (remember ownerEmail idemKey endpoint payload) := by
  unfold Quiet remember saveIdempotentResponse
  split
  · split <;> simp [Op.ledgerReference]
  · simp

theorem quiet_failed (p : Platform) (id signature text event : String) (payload : List (String × String))
    (answer : Answer) : Quiet log (do
      failAttempt id signature text
      emitPaymentWebhook p event payload
      return answer) := by
  have attempted : Quiet log (failAttempt id signature text) := by
    simp [Quiet, failAttempt, Op.ledgerReference]
  refine attempted.sequence fun _ _ _ _ => ?_
  exact (quiet_of_along p (along_emitPaymentWebhook _ _)).sequence fun _ _ _ _ => by simp

theorem quiet_settleSession (id signature reference : String) :
    Quiet log (settleSession id signature reference) := by
  simp [Quiet, settleSession, Op.ledgerReference]

theorem turns_submit (r : V1Request) : Turns [] (v1SubmitSignature p r) := by
  unfold Turns v1SubmitSignature
  split
  · simp
  · dsimp only
    split
    · split
      · simp
      · simp only [along_sql]
        refine ⟨inTurn_quiet rfl (by simp), ?_⟩
        rintro (fault | (_ | session))
        · simpa using Outside.of_unwritten rfl
        · simpa using Outside.of_unwritten rfl
        · dsimp only
          refine ((quiet_replayed _ _ _).keeps (Outside.of_unwritten rfl)).sequence fun first response _ same => ?_
          have unwritten : progress first = .unwritten := same
          have outside := Outside.of_unwritten unwritten
          cases response with
          | some content => simpa using outside
          | none =>
              dsimp only
              split
              · simpa using outside
              · simp only [along_sql]
                refine ⟨inTurn_quiet rfl outside, fun verifying => ?_⟩
                have begun : progress (⟨.sql (.setSessionState (sessionID r.path "/submit-signature") .verifying),
                    verifying⟩ :: first) = .unwritten := unwritten
                have outside := Outside.of_unwritten begun
                simp only [along_redis]
                refine ⟨inTurn_quiet rfl outside, ?_⟩
                rintro (fault | (_ | stored))
                · simpa using outside
                · simpa using outside
                · refine ((quiet_of_along p (along_verifyTransaction _ _ _ _)).keeps (by simpa using outside)).sequence
                    fun after verdict _ same => ?_
                  have unwritten : progress after = .unwritten := same.trans begun
                  have outside := Outside.of_unwritten unwritten
                  cases verdict with
                  | panicked => simpa using outside
                  | rejected text => exact (quiet_failed p _ _ _ _ _ _).turns outside
                  | accepted sender =>
                      refine turns_finalised _ _ _ _ unwritten fun result after => ?_
                      cases result with
                      | error text => exact quiet_failed p _ _ _ _ _ _
                      | ok _ =>
                          refine (quiet_settleSession _ _ _).sequence fun _ _ _ _ => ?_
                          refine (quiet_of_along p (along_getCheckoutStatus _)).sequence fun _ _ _ _ => ?_
                          refine (quiet_remember _ _ _ _).sequence fun _ _ _ _ => ?_
                          exact (quiet_of_along p (along_emitPaymentWebhook _ _)).sequence fun _ _ _ _ => by simp
    · simp

theorem turns_v1Detect (r : V1Request) : Turns [] (v1DetectPayment p r) := by
  unfold Turns v1DetectPayment
  split
  · simp
  · dsimp only
    simp only [along_sql]
    refine ⟨inTurn_quiet rfl (by simp), ?_⟩
    rintro (fault | (_ | session))
    · simpa using Outside.of_unwritten rfl
    · simpa using Outside.of_unwritten rfl
    · have outside : Outside [⟨.sql (.selectSession (sessionID r.path "/detect")), .ok (some session)⟩] :=
        Outside.of_unwritten rfl
      dsimp only
      split
      · exact (quiet_of_along p (along_respondCheckoutStatus _)).turns outside
      · simp only [along_redis]
        refine ⟨inTurn_quiet rfl outside, ?_⟩
        rintro (fault | (_ | stored))
        · simpa using outside
        · simpa using outside
        · refine ((quiet_of_along p (along_detectSignature _ _ _)).keeps (by simpa using outside)).sequence
            fun after verdict _ same => ?_
          have unwritten : progress after = .unwritten := same
          have outside := Outside.of_unwritten unwritten
          cases verdict with
          | panicked => simpa using outside
          | rejected text =>
              refine Quiet.turns ?_ outside
              exact (quiet_of_along p (along_emitPaymentWebhook _ _)).sequence fun _ _ _ _ => by simp
          | accepted found =>
              obtain ⟨signature, sender⟩ := found
              refine turns_finalised _ _ _ _ unwritten fun result after => ?_
              cases result with
              | error text => simp
              | ok _ =>
                  refine (quiet_settleSession _ _ _).sequence fun _ _ _ _ => ?_
                  refine (quiet_of_along p (along_getCheckoutStatus _)).sequence fun _ _ _ _ => ?_
                  exact (quiet_of_along p (along_emitPaymentWebhook _ _)).sequence fun _ _ _ _ => by simp

theorem turns_handler (request : Request) : Turns [] (handler p request) := by
  by_cases finaliser : request.isLegacyFinaliser = true ∨ request.isV1Finaliser = true
  · cases request with
    | confirm r => exact turns_confirm r
    | recheck r => exact turns_recheck r
    | detect r => exact turns_detect r
    | v1SubmitSignature r => exact turns_submit r
    | v1Detect r => exact turns_v1Detect r
    | _ => simp [Request.isLegacyFinaliser, Request.isV1Finaliser] at finaliser
  · simp only [not_or, Bool.not_eq_true] at finaliser
    have quiet : Quiet [] (handler p request) :=
      (handlers_careful request).mono (fun _ _ issues => ledgerReference_none issues finaliser) fun _ _ _ => trivial
    exact quiet.turns outside_nil

end Turns

section Threads

abbrev Turning (cfg : Service) : Prop := Disciplined (fun _ => InTurn) (fun _ after _ => Outside after) cfg

theorem turning_next (turning : Turning cfg) (stepped : (machine p).next cfg label = some after) : Turning after :=
  disciplined_next turns_handler turning stepped

variable {thread : ServiceThread} {reference : String}

-- Whoever writes a ledger has read the invoice of the reference.
theorem reads_first (warranted : Warranted p cfg) (turning : Turning cfg) (member : thread ∈ cfg.threads) {op : Op}
    (issues : thread.Issues op) (writes : Writes reference op) : HashRead thread.log reference := by
  have knows := warranted.issues member issues
  have turn := turning.issues member issues
  unfold Writes at writes
  cases op with
  | sql statement =>
      cases statement with
      | upsertPaidInvoice walletAddress reference signature amount =>
          cases writes
          obtain ⟨checkout, finalises, _, rfl, _⟩ := knows
          obtain ⟨stored, agreed, _⟩ := finalises.agreed
          exact ⟨stored, agreed.read⟩
      | upsertPaidCheckout checkout =>
          cases writes
          obtain ⟨earlier, logged, finalises⟩ := knows
          obtain ⟨stored, agreed, _⟩ := finalises.agreed
          rw [logged]
          exact HashRead.mono ⟨stored, agreed.read⟩ (List.suffix_cons _ _)
      | upsertErrorInvoice walletAddress reference signature amount errReason =>
          cases writes
          unfold InTurn at turn
          split at turn
          · exact turn.2 _ _ _ _ _ rfl
          · obtain ⟨_, wrong, _⟩ := turn
            cases wrong
          · cases turn
      | _ => cases writes
  | _ => cases writes

-- Whoever has marked an invoice goes on to its checkout.
theorem marks_checkout (turning : Turning cfg) (member : thread ∈ cfg.threads)
    (between : progress thread.log = .between reference) :
    ∃ checkout, thread.Issues (.sql (.upsertPaidCheckout checkout)) ∧ checkout.reference = reference := by
  have along := turning thread member
  cases program : thread.program with
  | ret answer =>
      rw [program, Program.along_ret] at along
      exact absurd between (along reference)
  | call op rest =>
      rw [program, Program.along_call] at along
      have turn : InTurn thread.log op := along.1
      unfold InTurn at turn
      rw [between] at turn
      obtain ⟨checkout, rfl, same⟩ := turn
      exact ⟨checkout, ⟨rest, program⟩, same⟩

theorem writes_once (turning : Turning cfg) (member : thread ∈ cfg.threads)
    (written : progress thread.log = .written) : ¬ thread.program.May (Writes reference) := by
  intro may
  have silent {log : History} {op : Op} (turn : InTurn log op) (written : progress log = .written) :
      op.ledgerReference = none := by
    unfold InTurn at turn
    rwa [written] at turn
  have along := turning thread member
  have kept : thread.program.Along (fun log _ => progress log = .written)
      (fun log _ => Outside log ∧ progress log = .written) thread.log :=
    along.keeps written fun log op reply turn written => (progress_quiet (silent turn written) reply log).trans written
  obtain ⟨log, op, _, writes, turn, written⟩ := (along.and kept).may may
  rw [Writes, silent turn written] at writes
  cases writes

/-- Where nobody finds the invoice in the cache, whoever has read it and may still do
something had read it before and may have done it then. -/
theorem may_before (stepped : (machine p).next cfg label = some after)
    (uncached : ∀ index thread, Performs cfg label index thread (.redis (.hGetAll (redisKey reference))) →
      ∀ cached ∈ cfg.world.cache, cached.key ≠ redisKey reference)
    {index : Nat} {current : ServiceThread} (found : after.threads[index]? = some current)
    (read : HashRead current.log reference) {bad : Op → Prop} (may : current.program.May bad) :
    ∃ earlier, cfg.threads[index]? = some earlier ∧ HashRead earlier.log reference ∧
      earlier.program.May bad := by
  rcases thread_after stepped found with old | ⟨request, _, rfl, _⟩ |
    ⟨choice, earlier, op, rest, reply, rfl, at_index, program, executed, rfl⟩
  · exact ⟨current, old, read, may⟩
  · obtain ⟨hash, saw⟩ := read
    exact absurd saw (by simp [Log.Saw])
  · refine ⟨earlier, at_index, ?_, ?_⟩
    · obtain ⟨hash, saw⟩ := read
      rcases List.mem_cons.mp saw with here | before
      · cases here
        obtain ⟨cached, among, same⟩ := cached_of_read (p := p) executed
        exact absurd same (uncached index earlier ⟨⟨choice, rfl⟩, at_index, rest, program⟩ cached among)
      · exact ⟨hash, before⟩
    · rw [program]
      exact .inr ⟨reply, may⟩

end Threads

section Manual
variable {log : History}

def Unrecorded (log : History) : Prop :=
  ∀ checkout reply, ¬ log.Saw (.sql (.insertPaidCheckout checkout)) reply

theorem Unrecorded.cons {op : Op} (unrecorded : Unrecorded log)
    (other : ∀ checkout, op ≠ .sql (.insertPaidCheckout checkout)) (reply : Reply op) :
    Unrecorded (⟨op, reply⟩ :: log) := by
  intro checkout answer saw
  rcases List.mem_cons.mp saw with here | earlier
  · cases here
    exact other checkout rfl
  · exact unrecorded checkout answer earlier

/-- A paid checkout without a session is recorded once, for what a manual verification gives. -/
def RecordsGiven (p : Platform) (request : Request) (log : History) : Op → Prop
  | .sql (.insertPaidCheckout checkout) => Unrecorded log ∧ ∃ req, request = .manualVerify ⟨.post, some req⟩ ∧
      checkout.signature = trimSpace req.signature ∧ checkout.participantData = p.marshalMap req.participant
  | _ => True

theorem given_verifyDirect {request : Request} (unrecorded : Unrecorded log) (signature : String)
    (amount : Int64) (merchant sender : String) :
    (verifyDirectTransferForMerchant p signature amount merchant sender).Along (RecordsGiven p request)
      (fun after _ => Unrecorded after) log := by
  have chain := @chain_verifyDirect p log signature amount merchant sender
  have kept : (verifyDirectTransferForMerchant p signature amount merchant sender).Along
      (fun log _ => Unrecorded log) (fun after _ => True ∧ Unrecorded after) log := by
    refine chain.keeps unrecorded fun log op reply asks unrecorded => unrecorded.cons ?_ reply
    rintro checkout rfl
    cases asks
  refine (chain.and kept).mono (fun log op both => ?_) fun _ _ both => both.2.2
  cases op with
  | rpc call => trivial
  | _ => cases both.1

theorem given_manualVerify (r : HttpRequest ManualVerifyRequest) :
    (manualVerifyCheckoutPayment p r).Along (RecordsGiven p (.manualVerify r)) (fun _ _ => True) [] := by
  obtain ⟨method, body⟩ := r
  unfold manualVerifyCheckoutPayment
  by_cases posted : method = .post
  · subst posted
    cases body with
    | none => simp
    | some req =>
        dsimp only
        split
        · simp
        · split
          · simp
          · simp only [along_sql, RecordsGiven, true_and]
            rintro (fault | (_ | event))
            · simp
            · simp
            · have start : Unrecorded [⟨.sql (.selectActiveEventBySlug (trimSpace req.slug)), .ok (some event)⟩] := by
                simp [Unrecorded, Log.Saw]
              refine (given_verifyDirect start _ _ _ _).sequence fun after verdict _ unrecorded => ?_
              cases verdict with
              | panicked => simp
              | rejected text => simp
              | accepted _ =>
                  simp only [along_newUUID, along_sql, Program.along_pure, RecordsGiven, true_and]
                  intro reference paid
                  refine ⟨⟨?_, req, rfl, rfl, rfl⟩, fun _ => trivial⟩
                  exact (unrecorded.cons (by simp) _).cons (by simp) _
  · simp [posted]

theorem given_handler (request : Request) :
    (handler p request).Along (RecordsGiven p request) (fun _ _ => True) [] := by
  have elsewhere (other : request.isManualVerify = false) :
      (handler p request).Along (RecordsGiven p request) (fun _ _ => True) [] := by
    refine Program.Along.mono (handlers_careful request) ?_ fun _ _ _ => trivial
    intro log op issued
    unfold RecordsGiven
    split
    · rw [issued.1] at other
      cases other
    · trivial
  cases request with
  | manualVerify r => exact given_manualVerify r
  | _ => exact elsewhere rfl

end Manual

section Sweep
variable {log : History}

def Selected (log : History) (id : Nat) : Prop :=
  ∃ rows, log.Saw (.sql .selectRecoverable) (.ok rows) ∧ ∃ row ∈ rows, row.id = id

def Marks (id : Nat) (op : Op) : Prop :=
  ∃ signature senderWallet, op = .sql (.markCheckoutPaid id signature senderWallet)

def Marked (log : History) (id : Nat) : Prop :=
  ∃ entry ∈ log, Marks id entry.op

theorem Marked.mono {later : History} {id : Nat} (marked : Marked log id) (grown : log <:+ later) :
    Marked later id := by
  obtain ⟨entry, member, marks⟩ := marked
  exact ⟨entry, grown.subset member, marks⟩

def FirstSelected (log : History) (rows : List CheckoutRecoveryRow) : Prop :=
  [⟨.sql .selectRecoverable, .ok rows⟩] <:+ log

def MarksOnce (log : History) (op : Op) : Prop :=
  ∀ id, Marks id op → ∃ rows, FirstSelected log rows ∧ ((rows.map (·.id)).Nodup → ¬ Marked log id)

theorem marksOnce_quiet {op : Op} (quiet : ∀ id, ¬ Marks id op) : MarksOnce log op :=
  fun id marks => absurd marks (quiet id)

theorem not_marks_of_asksChain {op : Op} (asks : op.asksChain = true) (id : Nat) : ¬ Marks id op := by
  rintro ⟨signature, senderWallet, rfl⟩
  cases asks

theorem marked_cons {op : Op} {reply : Reply op} {id : Nat} (marked : Marked (⟨op, reply⟩ :: log) id) :
    Marks id op ∨ Marked log id := by
  obtain ⟨entry, member, marks⟩ := marked
  rcases List.mem_cons.mp member with rfl | earlier
  · exact .inl marks
  · exact .inr ⟨entry, earlier, marks⟩

/-- The sweep has selected `all` of the rows and marked none but the ones done. -/
structure Behind (log : History) (all done : List CheckoutRecoveryRow) : Prop where
  first : FirstSelected log all
  marked : ∀ id, Marked log id → id ∈ done.map (·.id)

theorem Behind.quiet {all done : List CheckoutRecoveryRow} (behind : Behind log all done) {op : Op}
    (quiet : ∀ id, ¬ Marks id op) (reply : Reply op) : Behind (⟨op, reply⟩ :: log) all done where
  first := behind.first.trans (List.suffix_cons _ _)
  marked id marked := behind.marked id ((marked_cons marked).resolve_left (quiet id))

theorem Behind.passed {all done : List CheckoutRecoveryRow} (behind : Behind log all done)
    (row : CheckoutRecoveryRow) : Behind log all (done ++ [row]) where
  first := behind.first
  marked id marked := by
    rw [List.map_append, List.mem_append]
    exact .inl (behind.marked id marked)

theorem quiet_verifyTransaction {all done : List CheckoutRecoveryRow} (behind : Behind log all done)
    (reference signature : String) (amount : Int64) (merchant : String) :
    (verifyTransactionForMerchantWithSender p reference signature amount merchant).Along MarksOnce
      (fun after _ => Behind after all done) log := by
  have chain := @chain_verifyTransaction p log reference signature amount merchant
  have kept : (verifyTransactionForMerchantWithSender p reference signature amount merchant).Along
      (fun log _ => Behind log all done) (fun after _ => True ∧ Behind after all done) log :=
    chain.keeps behind fun log op reply asks behind => behind.quiet (not_marks_of_asksChain asks) reply
  exact (chain.and kept).mono (fun _ _ both => marksOnce_quiet (not_marks_of_asksChain both.1))
    fun _ _ both => both.2.2

theorem marks_recoverRows {all done rows : List CheckoutRecoveryRow} (split : all = done ++ rows)
    (behind : Behind log all done) : (recoverRows p rows).Along MarksOnce (fun _ _ => True) log := by
  induction rows generalizing done log with
  | nil => simp [recoverRows]
  | cons row rest ih =>
      have split' : all = (done ++ [row]) ++ rest := by simpa using split
      unfold recoverRows
      refine (quiet_verifyTransaction behind _ _ _ _).sequence fun after verdict _ behind => ?_
      cases verdict with
      | panicked => simp
      | accepted sender =>
          simp only [along_sql]
          refine ⟨?_, fun reply => ih split' ⟨behind.first.trans (List.suffix_cons _ _), fun id again => ?_⟩⟩
          · rintro id ⟨_, _, same⟩
            cases same
            refine ⟨all, behind.first, fun distinct done_before => ?_⟩
            rw [split, List.map_append, List.map_cons] at distinct
            exact (List.nodup_append.mp distinct).2.2 _ (behind.marked _ done_before) _ List.mem_cons_self rfl
          · rw [List.map_append, List.mem_append]
            rcases marked_cons again with ⟨_, _, same⟩ | earlier
            · cases same
              exact .inr List.mem_cons_self
            · exact .inl (behind.marked id earlier)
      | rejected text =>
          simp only [along_timeNow]
          refine ⟨marksOnce_quiet (by simp [Marks]), fun now => ?_⟩
          have clock : ∀ id, ¬ Marks id .now := by simp [Marks]
          have behind := behind.quiet clock now
          split
          · simp only [along_sql]
            have fails : ∀ id, ¬ Marks id (.sql (.markCheckoutFailed row.id)) := by simp [Marks]
            exact ⟨marksOnce_quiet fails, fun reply => ih split' ((behind.quiet fails reply).passed row)⟩
          · exact ih split' (behind.passed row)

theorem marks_handler (request : Request) : (handler p request).Along MarksOnce (fun _ _ => True) [] := by
  by_cases sweep : request = .recoverErrorInvoices
  · subst sweep
    change (recoverErrorInvoices p).Along MarksOnce (fun _ _ => True) []
    unfold recoverErrorInvoices
    simp only [along_sql]
    refine ⟨marksOnce_quiet (by simp [Marks]), ?_⟩
    rintro (fault | rows)
    · simp
    · have behind : Behind [⟨.sql .selectRecoverable, .ok rows⟩] rows [] :=
        ⟨List.suffix_refl _, by simp [Marked, Marks]⟩
      exact marks_recoverRows (List.nil_append rows).symm behind
  · refine (handlers_careful request).mono (fun log op issues => marksOnce_quiet ?_) fun _ _ _ => trivial
    rintro id ⟨signature, senderWallet, rfl⟩
    exact sweep issues.1

abbrev Sweeping (cfg : Service) : Prop := Disciplined (fun _ => MarksOnce) (fun _ _ _ => True) cfg

theorem sweeping_next (sweeping : Sweeping cfg) (stepped : (machine p).next cfg label = some after) :
    Sweeping after :=
  disciplined_next marks_handler sweeping stepped

theorem FirstSelected.saw {rows : List CheckoutRecoveryRow} (first : FirstSelected log rows) :
    log.Saw (.sql .selectRecoverable) (.ok rows) :=
  first.subset List.mem_cons_self

theorem FirstSelected.unique {rows other : List CheckoutRecoveryRow} (first : FirstSelected log rows)
    (also : FirstSelected log other) : rows = other := by
  have same := (List.suffix_of_suffix_length_le first also le_rfl).eq_of_length rfl
  simpa using same

-- A sweep that has selected no row twice does not mark twice.
theorem marks_once (sweeping : Sweeping cfg) {thread : ServiceThread} (member : thread ∈ cfg.threads)
    {rows : List CheckoutRecoveryRow} (first : FirstSelected thread.log rows)
    (distinct : (rows.map (·.id)).Nodup) {id : Nat} (marked : Marked thread.log id) :
    ¬ thread.program.May (Marks id) := by
  intro may
  obtain ⟨log, op, grown, marks, turn⟩ := (sweeping thread member).may may
  obtain ⟨others, also, once⟩ := turn id marks
  have still : FirstSelected log rows := first.trans grown
  rw [still.unique also] at distinct
  exact once distinct (marked.mono grown)

end Sweep

end Payknot
