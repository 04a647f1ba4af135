import Payknot.RefusedSubmissions
import Payknot.Finalisation

/-! No session is left under verification by complete requests, as long as every submission
that marks one is brought to an end: it finds the invoice, survives the transaction it is
shown and can write its outcome. -/
namespace Payknot
open GoText Interleaving Machine

def NoneVerifying (w : World) : Prop := ∀ row ∈ w.sessions, row.state ≠ .verifying

instance (w : World) : Decidable (NoneVerifying w) :=
  inferInstanceAs (Decidable (∀ row ∈ w.sessions, row.state ≠ .verifying))

def Verdict.panics {Value : Type} : Verdict Value → Bool
  | .panicked => true
  | _ => false

/-- The verifier returns on this answer of the chain, for every session under verification. -/
def survives (p : Platform) (result : TransactionResult) (w : World) : Bool :=
  match decodeResult result with
  | .error _ => true
  | .ok tx => w.sessions.all fun session => session.state ≠ .verifying ||
      !(verifyPayment p session.reference session.amountAtomic session.merchantWallet tx).panics

/-- The operation does not cut off a submission whose session is under verification. -/
def completes (p : Platform) (choice : Choice) : Op → World → Bool
  | .redis (.hGetAll key), w => choice.fault.isNone && (w.cache.find? (·.key = key)).isSome
  | .rpc (.getTransaction _ sig), w => choice.fault.isSome ||
      (w.chain.find? (·.signature = sig)).all fun landed => survives p landed.result w
  | .sql (.setSessionState _ .failed), _ | .sql (.setSessionPaid _ _), _ => choice.fault.isNone
  | _, _ => true

/-- The step cuts off no submission whose session is under verification. -/
def resolves (p : Platform) (cfg : Service) : ServiceLabel → Bool
  | .step index choice =>
      match cfg.threads[index]? with
      | some ⟨request, _, .call op _⟩ =>
          !request.isSubmit || decide (NoneVerifying cfg.world) || completes p choice op cfg.world
      | _ => true
  | _ => true

def Resolving (p : Platform) (request : Request) : Performing Reply World := fun op w reply after =>
  ∃ choice, (request.isSubmit = true → NoneVerifying w ∨ completes p choice op w = true) ∧
    exec p choice op w = some (reply, after)

section Steps
variable {p : Platform} {request : Request} {op : Op} {w after : World} {reply : Reply op}

theorem Resolving.performs (performed : Resolving p request op w reply after) :
    performs p op w reply after := by
  obtain ⟨choice, _, executed⟩ := performed
  exact ⟨choice, trivial, executed⟩

theorem noneVerifying_of_same (none : NoneVerifying w) (same : after.sessions = w.sessions) :
    NoneVerifying after := by
  unfold NoneVerifying
  rwa [same]

-- Only the mark itself puts a session under verification.
theorem noneVerifying_kept (unmarked : ∀ id, op ≠ .sql (.setSessionState id .verifying))
    (performed : performs p op w reply after) (none : NoneVerifying w) : NoneVerifying after := by
  obtain ⟨choice, _, executed⟩ := performed
  rcases exec_sessions (p := p) executed with same | ⟨session, id, reference, data, _, _, _, _, _, added⟩ |
    ⟨id, canonical, state, rfl, _, updated⟩ | ⟨id, canonical, signature, _, _, updated⟩ |
    ⟨id, ownerEmail, _, removed⟩
  · exact noneVerifying_of_same none same
  · intro row member
    rw [added] at member
    rcases List.mem_append.mp member with old | new
    · exact none row old
    · rw [List.mem_singleton] at new
      subst new
      rintro ⟨⟩
  · intro row member
    rw [updated] at member
    obtain ⟨old, among, ⟨_, rfl⟩ | ⟨_, rfl⟩⟩ := mem_updateWhere member
    · rintro rfl
      exact unmarked id rfl
    · exact none _ among
  · intro row member
    rw [updated] at member
    obtain ⟨old, among, ⟨_, rfl⟩ | ⟨_, rfl⟩⟩ := mem_updateWhere member
    · rintro ⟨⟩
    · exact none _ among
  · intro row member
    rw [removed] at member
    exact none row (List.mem_filter.mp member).1

-- Nobody but submit-signature leaves a session under verification.
theorem others_ensure (other : request.isSubmit = false) (none : NoneVerifying w) :
    (handler p request).Ensures (Resolving p request) (fun _ => NoneVerifying) w := by
  have unmarked : (handler p request).Along (fun _ op => ∀ id, op ≠ .sql (.setSessionState id .verifying))
      (fun _ _ => True) [] := by
    refine Program.Along.mono (handlers_careful request) ?_ fun _ _ _ => trivial
    rintro log op issued id rfl
    obtain ⟨session, _, _, ⟨same, _⟩ | ⟨_, submits⟩⟩ := issued
    · cases same
    · rw [other] at submits
      cases submits
  exact unmarked.ensures NoneVerifying none fun op w reply after unmarked performed =>
    noneVerifying_kept unmarked performed.performs

end Steps

section Verifying
variable {p : Platform} {r : V1Request} {id : String} {session : SessionRow} {w after : World}

/-- Only the session with this identifier is under verification, and if one is then the session
as it was read. -/
structure BeingVerified (id : String) (session : SessionRow) (w : World) : Prop where
  alone : ∀ row ∈ w.sessions, row.state = .verifying → row.id = id
  marked : NoneVerifying w ∨ { session with state := .verifying } ∈ w.sessions

theorem BeingVerified.of_same (held : BeingVerified id session w) (same : after.sessions = w.sessions) :
    BeingVerified id session after := by
  obtain ⟨alone, marked⟩ := held
  constructor
  · rwa [same]
  · rwa [NoneVerifying, same]

theorem beingVerified_marked {text : String} {reply : Except Fault Unit} (none : NoneVerifying w)
    (cast : p.uuidText text = some id) (found : w.sessions.find? (·.id = id) = some session)
    (performed : performs p (.sql (.setSessionState text .verifying)) w reply after) :
    BeingVerified id session after := by
  obtain ⟨choice, _, executed⟩ := performed
  change exec p choice (.sql (.setSessionState text .verifying)) w = some (reply, after) at executed
  rcases exec_sql executed with ⟨_, _, rfl⟩ | ⟨value, _, ran⟩
  · exact ⟨fun row member verifying => absurd verifying (none row member), .inl none⟩
  · simp only [Sql.run, withSessionId, cast] at ran
    cases ran
    constructor
    · intro row member verifying
      obtain ⟨old, among, ⟨chosen, rfl⟩ | ⟨_, rfl⟩⟩ := mem_updateWhere member
      · simpa using chosen
      · exact absurd verifying (none _ among)
    · rcases updateWhere_mem (·.id = id) (fun row => { row with state := .verifying })
        (List.mem_of_find?_eq_some found) with ⟨_, changed⟩ | ⟨unchosen, _⟩
      · exact .inr changed
      · have chosen := List.find?_some found
        rw [unchosen] at chosen
        cases chosen

-- Whatever outcome is written for the session ends its verification.
theorem BeingVerified.ends (held : BeingVerified id session w) {set : SessionRow → SessionRow}
    (ends : ∀ row, (set row).state ≠ .verifying) : NoneVerifying (w.updateSession id set) := by
  intro row member
  obtain ⟨old, among, ⟨_, rfl⟩ | ⟨other, rfl⟩⟩ := mem_updateWhere member
  · exact ends old
  · intro verifying
    have same := held.alone _ among verifying
    simp [same] at other

theorem ends_failed {text : String} {reply : Except Fault Unit} (held : BeingVerified id session w)
    (cast : p.uuidText text = some id)
    (performed : Resolving p (.v1SubmitSignature r) (.sql (.setSessionState text .failed)) w reply after) :
    NoneVerifying after := by
  have performs := performed.performs
  obtain ⟨choice, completes, executed⟩ := performed
  rcases completes rfl with none | is_up
  · exact noneVerifying_kept (fun _ => by rintro ⟨⟩) performs none
  · change some (settle choice.fault _ _) = some (reply, after) at executed
    simp only [Option.isNone_iff_eq_none.mp is_up, Sql.run, withSessionId, cast, settle] at executed
    cases executed
    exact held.ends fun row => by rintro ⟨⟩

theorem ends_paid {text signature : String} {reply : Except Fault Unit} (held : BeingVerified id session w)
    (cast : p.uuidText text = some id)
    (performed : Resolving p (.v1SubmitSignature r) (.sql (.setSessionPaid text signature)) w reply after) :
    NoneVerifying after := by
  have performs := performed.performs
  obtain ⟨choice, completes, executed⟩ := performed
  rcases completes rfl with none | is_up
  · exact noneVerifying_kept (fun _ => by rintro ⟨⟩) performs none
  · change some (settle choice.fault _ _) = some (reply, after) at executed
    simp only [Option.isNone_iff_eq_none.mp is_up, Sql.run, withSessionId, cast, settle] at executed
    cases executed
    exact held.ends fun row => by rintro ⟨⟩

theorem ensures_same {Result : Type} {request : Request} {program : Handler Result}
    {done : History → Result → Prop} {log : History}
    (quiet : program.Along (fun _ op => Part.sessions ∉ op.writes) done log) (w : World) :
    program.Ensures (Resolving p request) (fun _ after => after.sessions = w.sessions) w := by
  refine quiet.ensures (fun after : World => after.sessions = w.sessions) rfl ?_
  intro op middle reply after quiet performed same
  exact (performs_frame .sessions (Resolving.performs performed) quiet).trans same

theorem ensures_looks {Result : Type} {request : Request} {program : Handler Result}
    {done : History → Result → Prop} {log : History}
    (looking : program.Along (fun _ op => op.looks = true) done log) (w : World) :
    program.Ensures (Resolving p request) (fun _ after => after = w) w := by
  refine looking.ensures (fun after : World => after = w) rfl ?_
  intro op middle reply after looks performed same
  exact (performs_looks looks (Resolving.performs performed)).trans same

theorem apart_of_looks {op : Op} (looks : op.looks = true) : Part.sessions ∉ op.writes := by
  cases op with
  | sql statement => cases statement <;> first | exact List.not_mem_nil | cases looks
  | redis command => cases command <;> first | exact List.not_mem_nil | cases looks
  | _ => first | exact List.not_mem_nil | cases looks

theorem apart_finalizePaidCheckout {log : History} (reference signature : String) (invoiceData : InvoiceHash)
    (amount : Int64) : (finalizePaidCheckout p reference signature invoiceData amount).Along
      (fun _ op => Part.sessions ∉ op.writes) (fun _ _ => True) log := by
  unfold finalizePaidCheckout
  split
  · simp
  · refine ((along_checkEmail_looks _ _ _ _).mono (fun _ _ => apart_of_looks) fun _ _ _ => trivial).sequence ?_
    rintro after result _ _
    cases result with
    | error text => simp
    | ok _ =>
        simp only [along_sql]
        refine ⟨by simp [Op.writes, Sql.writes], ?_⟩
        rintro (fault | _)
        · simp
        · simp only [along_sql]
          refine ⟨by simp [Op.writes, Sql.writes], ?_⟩
          rintro (fault | _) <;> simp

theorem apart_emitPaymentWebhook {log : History} (event : String) (payload : List (String × String)) :
    (emitPaymentWebhook p event payload).Along (fun _ op => Part.sessions ∉ op.writes) (fun _ _ => True) log := by
  unfold emitPaymentWebhook
  split <;> simp [Op.writes, Program.perform]

theorem apart_remember {log : History} (ownerEmail idemKey endpoint : String) (payload : Content) :
    (remember ownerEmail idemKey endpoint payload).Along (fun _ op => Part.sessions ∉ op.writes)
      (fun _ _ => True) log := by
  unfold remember saveIdempotentResponse
  split
  · split <;> simp [Op.writes, Sql.writes]
  · simp

theorem looks_getCheckoutStatus {log : History} (reference : String) :
    (getCheckoutStatusByReference reference).Along (fun _ op => op.looks = true) (fun _ _ => True) log := by
  unfold getCheckoutStatusByReference
  rw [along_sql]
  refine ⟨rfl, ?_⟩
  rintro (fault | (_ | row)) <;> simp

theorem looks_replayed {log : History} (ownerEmail idemKey endpoint : String) :
    (replayed ownerEmail idemKey endpoint).Along (fun _ op => op.looks = true) (fun _ _ => True) log := by
  unfold replayed loadIdempotentResponse
  split
  · split
    · simp
    · simp only [along_sql]
      refine ⟨rfl, ?_⟩
      rintro (fault | (_ | response)) <;> simp
  · simp

/-- The transaction that is fetched panics the verifier for no session under verification. -/
theorem ensures_fetch (signature : String) (w : World) :
    (fetchTransaction p signature).Ensures (Resolving p (.v1SubmitSignature r)) (fun result after =>
      after = w ∧ ∀ tx, result = .ok tx → NoneVerifying w ∨ ∀ session ∈ w.sessions,
        session.state = .verifying →
        verifyPayment p session.reference session.amountAtomic session.merchantWallet tx ≠ .panicked) w := by
  have health : getRpcClientWithFailover.Along (fun _ op => op.looks = true) (fun _ _ => True) [] := by
    unfold getRpcClientWithFailover
    rw [along_rpc]
    refine ⟨rfl, ?_⟩
    rintro (fault | _) <;> simp
  unfold fetchTransaction rpc
  refine (ensures_looks health w).sequence ?_
  rintro client _ rfl
  cases p.signatureFromBase58 signature with
  | error text =>
      rw [Program.ensures_pure]
      exact ⟨rfl, by rintro _ ⟨⟩⟩
  | ok sig =>
      dsimp only
      refine (Program.ensures_perform_bind _ _ _).mpr fun reply after performed => ?_
      obtain ⟨choice, completes, executed⟩ := performed
      obtain ⟨rfl, answered⟩ := exec_rpc executed
      cases reply with
      | error fault =>
          rw [Program.ensures_pure]
          exact ⟨rfl, by rintro _ ⟨⟩⟩
      | ok result =>
          rw [Program.ensures_pure]
          refine ⟨rfl, fun tx decoded => ?_⟩
          rcases completes rfl with none | shown
          · exact .inl none
          · refine .inr fun session member verifying => ?_
            have is_up : choice.fault = none := by
              rcases settle_cases (Option.some.inj executed) with ⟨_, failed, _⟩ | ⟨_, _, _, is_up⟩
              · cases failed
              · exact is_up
            have ran := answered result rfl
            simp only [Rpc.run] at ran
            cases landing : after.chain.find? (·.signature = sig) with
            | none =>
                rw [landing] at ran
                cases ran
            | some landed =>
                rw [landing] at ran
                cases ran
                have returns : survives p landed.result after = true := by
                  change (choice.fault.isSome || (after.chain.find? (·.signature = sig)).all _) = true at shown
                  rw [is_up, landing] at shown
                  exact shown
                simp only [survives, decoded, List.all_eq_true] at returns
                have returned := returns session member
                intro panicked
                rw [verifying, panicked] at returned
                cases returned

theorem ensures_verifier (held : BeingVerified id session w) (signature : String) :
    (verifyTransactionForMerchant p session.reference signature session.amountAtomic
      session.merchantWallet).Ensures (Resolving p (.v1SubmitSignature r))
        (fun verdict after => after = w ∧ (verdict = .panicked → NoneVerifying w)) w := by
  unfold verifyTransactionForMerchant verifyTransactionForMerchantWithSender
  split
  · rw [Program.ensures_pure]
    exact ⟨rfl, by rintro ⟨⟩⟩
  · refine (ensures_fetch signature w).sequence ?_
    rintro result _ ⟨rfl, survives⟩
    cases result with
    | error text =>
        rw [Program.ensures_pure]
        exact ⟨rfl, by rintro ⟨⟩⟩
    | ok tx =>
        rw [Program.ensures_pure]
        refine ⟨rfl, fun panicked => ?_⟩
        rcases survives tx rfl with none | survives
        · exact none
        · rcases held.marked with none | marked
          · exact none
          · exact absurd panicked (survives { session with state := .verifying } marked rfl)

theorem read_session {text : String} (performed : performs p (.sql (.selectSession text)) w (.ok (some session)) after) :
    ∃ id, p.uuidText text = some id ∧ w.sessions.find? (·.id = id) = some session := by
  obtain ⟨choice, _, executed⟩ := performed
  change exec p choice (.sql (.selectSession text)) w = some (.ok (some session), after) at executed
  rcases exec_sql executed with ⟨_, wrong, _⟩ | ⟨value, same, ran⟩
  · cases wrong
  · obtain ⟨id, cast, ran⟩ := withSessionId_ok ran
    cases same
    exact ⟨id, cast, congrArg Prod.fst (Except.ok.inj ran)⟩

-- The invoice is found, or no session is under verification.
theorem invoice_found {key : String} {reply : Except Fault (Option InvoiceHash)}
    (performed : Resolving p (.v1SubmitSignature r) (.redis (.hGetAll key)) w reply after) :
    NoneVerifying after ∨ ∃ hash, reply = .ok (some hash) := by
  have same := performs_looks rfl performed.performs
  obtain ⟨choice, completes, executed⟩ := performed
  rcases completes rfl with none | answered
  · rw [same]
    exact .inl none
  · obtain ⟨is_up, found⟩ := (Bool.and_eq_true _ _).mp answered
    rw [Option.isNone_iff_eq_none] at is_up
    change some (settle choice.fault _ _) = some (reply, after) at executed
    rw [is_up] at executed
    cases cached : w.cache.find? (·.key = key) with
    | none =>
        rw [cached] at found
        cases found
    | some entry =>
        simp only [Redis.run, cached, settle] at executed
        cases executed
        exact .inr ⟨_, rfl⟩

theorem ensures_failAttempt {text : String} (held : BeingVerified id session w)
    (cast : p.uuidText text = some id) (signature error : String) :
    (failAttempt text signature error).Ensures (Resolving p (.v1SubmitSignature r)) (fun _ => NoneVerifying) w := by
  unfold failAttempt sql
  refine (Program.ensures_perform_bind _ _ _).mpr fun reply attempted performed => ?_
  have same := performs_frame .sessions performed.performs (by simp [Op.writes, Sql.writes])
  refine (Program.ensures_perform_bind _ _ _).mpr fun reply failed performed => ?_
  rw [Program.ensures_pure]
  exact ends_failed (held.of_same same) cast performed

theorem ensures_settleSession {text : String} (held : BeingVerified id session w)
    (cast : p.uuidText text = some id) (signature reference : String) :
    (settleSession text signature reference).Ensures (Resolving p (.v1SubmitSignature r)) (fun _ => NoneVerifying)
      w := by
  unfold settleSession sql redis
  refine (Program.ensures_perform_bind _ _ _).mpr fun reply attempted performed => ?_
  have same := performs_frame .sessions performed.performs (by simp [Op.writes, Sql.writes])
  refine (Program.ensures_perform_bind _ _ _).mpr fun reply paid performed => ?_
  have none := ends_paid (held.of_same same) cast performed
  refine (Program.ensures_perform_bind _ _ _).mpr fun reply deleted performed => ?_
  rw [Program.ensures_pure]
  exact noneVerifying_kept (fun _ => by rintro ⟨⟩) performed.performs none

-- The last word to the webhook, once the outcome is written.
theorem ensures_notified {answer : Answer} (none : NoneVerifying w) (event : String)
    (told : List (String × String)) :
    (do
      emitPaymentWebhook p event told
      return answer : Handler Answer).Ensures (Resolving p (.v1SubmitSignature r)) (fun _ => NoneVerifying) w := by
  have telling := @apart_emitPaymentWebhook p [] event told
  refine (ensures_same telling w).sequence fun _ after same => ?_
  rw [Program.ensures_pure]
  exact noneVerifying_of_same none same

-- Once the row may be marked the submission is brought to an end.
theorem submission_ensures (none : NoneVerifying w) :
    (v1SubmitSignature p r).Ensures (Resolving p (.v1SubmitSignature r)) (fun _ => NoneVerifying) w := by
  have refused (answer : Answer) : (return answer : Handler Answer).Ensures (Resolving p (.v1SubmitSignature r))
      (fun _ => NoneVerifying) w := by
    rw [Program.ensures_pure]
    exact none
  unfold v1SubmitSignature sql redis
  split
  · exact refused _
  · split
    · next body _ =>
      dsimp only
      split
      · exact refused _
      · refine (Program.ensures_perform_bind _ _ _).mpr fun reply read performed => ?_
        obtain rfl := performs_looks rfl performed.performs
        rcases reply with fault | (_ | session)
        · exact refused _
        · exact refused _
        · obtain ⟨id, cast, found⟩ := read_session performed.performs
          dsimp only
          have replaying := @looks_replayed [] session.ownerEmail (trimSpace r.idempotencyKey) submitEndpoint
          refine (ensures_looks replaying _).sequence ?_
          rintro response _ rfl
          cases response with
          | some content => exact refused _
          | none =>
              dsimp only
              split
              · exact refused _
              · refine (Program.ensures_perform_bind _ _ _).mpr fun reply marked performed => ?_
                have held := beingVerified_marked none cast found performed.performs
                refine (Program.ensures_perform_bind _ _ _).mpr fun reply looked performed => ?_
                have missed (missing : ∀ hash, reply ≠ .ok (some hash)) (answer : Answer) :
                    (return answer : Handler Answer).Ensures (Resolving p (.v1SubmitSignature r))
                      (fun _ => NoneVerifying) looked := by
                  rw [Program.ensures_pure]
                  rcases invoice_found performed with none | ⟨hash, found⟩
                  · exact none
                  · exact absurd found (missing hash)
                obtain rfl := performs_looks rfl performed.performs
                rcases reply with fault | (_ | invoiceData)
                · exact missed (fun _ => by rintro ⟨⟩) _
                · exact missed (fun _ => by rintro ⟨⟩) _
                · dsimp only
                  refine (ensures_verifier held (trimSpace body)).sequence ?_
                  rintro verdict _ ⟨rfl, panics⟩
                  cases verdict with
                  | panicked =>
                      rw [Program.ensures_pure]
                      exact panics rfl
                  | rejected text =>
                      refine (ensures_failAttempt held cast _ _).sequence fun _ failed none => ?_
                      exact ensures_notified none _ _
                  | accepted sender =>
                      have finalising := @apart_finalizePaidCheckout p [] session.reference (trimSpace body)
                        invoiceData session.amountAtomic
                      refine (ensures_same finalising _).sequence fun result finalised same => ?_
                      have held := held.of_same same
                      cases result with
                      | error text =>
                          refine (ensures_failAttempt held cast _ _).sequence fun _ failed none => ?_
                          exact ensures_notified none _ _
                      | ok _ =>
                          refine (ensures_settleSession held cast _ _).sequence fun _ settled none => ?_
                          have reading := @looks_getCheckoutStatus [] session.reference
                          refine (ensures_looks reading _).sequence ?_
                          rintro status _ rfl
                          have noting := @apart_remember [] session.ownerEmail (trimSpace r.idempotencyKey)
                            submitEndpoint (.checkoutStatus (status.getD .zero))
                          refine (ensures_same noting _).sequence ?_
                          intro _ noted same
                          exact ensures_notified (noneVerifying_of_same none same) _ _
    · exact refused _

theorem handlers_ensure (request : Request) (w : World) (none : NoneVerifying w) :
    (handler p request).Ensures (Resolving p request) (fun _ => NoneVerifying) w := by
  by_cases submits : request.isSubmit = true
  · cases request with
    | v1SubmitSignature r => exact submission_ensures none
    | _ => cases submits
  · exact others_ensure (by simpa using submits) none

theorem occur_noneVerifying {event : WorldEvent} (none : NoneVerifying w) (occurred : occur event w = some after) :
    NoneVerifying after :=
  noneVerifying_of_same none (occur_frame .sessions occurred (by decide))

theorem resolves_step {cfg : Service} {index : Nat} {choice : Choice} {thread : ServiceThread} {op : Op}
    (resolving : resolves p cfg (.step index choice) = true) (found : cfg.threads[index]? = some thread)
    (issues : thread.Issues op) (submits : thread.request.isSubmit = true) :
    NoneVerifying cfg.world ∨ completes p choice op cfg.world = true := by
  obtain ⟨next, program⟩ := issues
  obtain ⟨request, log, _⟩ := thread
  cases program
  simp only [resolves, found, submits, Bool.not_true, Bool.false_or, Bool.or_eq_true, decide_eq_true_eq]
    at resolving
  exact resolving

-- Between complete requests no session is under verification.
theorem none_left_verifying {first last : Service}
    (run : (machine p).Reaches (fun cfg label => oneAtATime cfg label = true ∧ resolves p cfg label = true)
      first last)
    (resting : idle first = true) (start : NoneVerifying first.world) (ended : idle last = true) :
    NoneVerifying last.world := by
  refine run.between ?_ handlers_ensure (fun _ _ _ => occur_noneVerifying) resting start ended
  intro cfg index choice thread op reply after resolving found issues executed
  exact ⟨choice, resolves_step resolving found issues, executed⟩

end Verifying

/-- A refusal that never asked the chain leaves the sessions as they were exactly when the
row was not marked in vain. And where no step cuts off a submission whose session is
marked, complete requests leave no session under verification. -/
theorem refused_submission_untouched_iff (p : Platform) :
    (∀ w r, LeavesUntouched p w r ↔ ¬ MarkedInVain p w r) ∧
      ∀ first last : Service, idle first = true → NoneVerifying first.world →
        (machine p).Reaches (fun cfg label => oneAtATime cfg label = true ∧ resolves p cfg label = true)
          first last →
        idle last = true → NoneVerifying last.world :=
  ⟨fun _ _ => leavesUntouched_iff, fun _ _ resting start run ended => none_left_verifying run resting start ended⟩

section Meetup
open Mainnet

-- The submission finds the session's hash, and its signature can be read.
theorem submission_not_in_vain :
    ¬ MarkedInVain platform (opened []).world (onSession "/submit-signature" (some signatureText1)) := by
  rintro ⟨session, signature, taken, vain⟩
  obtain ⟨id, named, found⟩ := taken.found
  have this_session : platform.uuidText
      (sessionID (onSession "/submit-signature" (some signatureText1)).path "/submit-signature") = some uuid3 := by
    decide +kernel
  obtain rfl : uuid3 = id := Option.some.inj (this_session.symm.trans named)
  obtain rfl : _ = session := Option.some.inj (Eq.trans (by rfl) found)
  obtain rfl : signatureText1 = signature := by
    refine Option.some.inj (Eq.trans ?_ taken.signed)
    decide +kernel
  rcases vain with expired | (blank | blank) | ⟨text, unreadable⟩
  · revert expired
    rw [InvoiceExpired]
    decide +kernel
  · exact absurd blank (by decide +kernel)
  · exact absurd blank (by decide +kernel)
  · have readable : platform.signatureFromBase58 signatureText1 = .ok signature1 := by decide +kernel
    rw [readable] at unreadable
    cases unreadable

theorem refused_submission_untouched_meetup :
    LeavesUntouched platform (opened []).world (onSession "/submit-signature" (some signatureText1)) ∧
    ∃ last : Service, (machine platform).Reaches
        (fun cfg label => oneAtATime cfg label = true ∧ resolves platform cfg label = true)
        (opened [landed signature1 [uuid1]]) last ∧
      last.world.sessions.any (·.state = .paid) = true ∧ NoneVerifying last.world := by
  obtain ⟨last, run, done⟩ := run_meets (machine platform)
    (fun cfg label => oneAtATime cfg label && resolves platform cfg label)
    (.arrive submit :: steps 0 12 "") (opened [landed signature1 [uuid1]])
    (fun cfg => idle cfg && cfg.world.sessions.any (·.state = .paid)) (by decide +kernel)
  simp only [Bool.and_eq_true] at run done
  have untouched := refused_submission_untouched_iff platform
  refine ⟨(untouched.1 _ _).mpr submission_not_in_vain, last, run, done.2, ?_⟩
  exact untouched.2 (opened [landed signature1 [uuid1]]) last rfl (by simp [NoneVerifying, opened]) run done.1

def expired : World := { (opened []).world with cache := [] }

/-- A signature for a session whose invoice has expired is refused, and the session stays
under verification; twenty minutes after its creation it comes to that. -/
theorem expired_session_left_verifying :
    ¬ LeavesUntouched platform expired (onSession "/submit-signature" (some signatureText1)) ∧
    ∃ last : Service, (machine platform).Reaches (fun cfg label => oneAtATime cfg label = true)
        (opening []) last ∧ idle last = true ∧ ¬ NoneVerifying last.world := by
  constructor
  · rw [leavesUntouched_iff, not_not]
    have found : expired.sessions.find? (·.id = uuid3) = some _ := rfl
    refine ⟨_, signatureText1, ⟨rfl, ?_, by decide, ⟨uuid3, by decide +kernel, found⟩, rfl, .inl rfl⟩, .inl rfl⟩
    decide +kernel
  · obtain ⟨last, run, done⟩ := run_meets (machine platform) oneAtATime
      (.arrive (create "") :: steps 0 4 uuid3 ++ steps 0 5 uuid1 ++ .event (.tick 1200000000000) ::
        .arrive submit :: steps 1 3 "") (opening [])
      (fun cfg => idle cfg && !decide (NoneVerifying cfg.world)) (by decide +kernel)
    simp only [Bool.and_eq_true, Bool.not_eq_true', decide_eq_false_iff_not] at done
    exact ⟨last, run, done⟩

end Meetup
end Payknot
