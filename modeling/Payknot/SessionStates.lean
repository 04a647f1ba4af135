import Payknot.History
import Payknot.Mainnet

/-! The final states of a payment session. Submit, detect and cancel read the state in
their first statement, and none of their UPDATEs looks at it again; after a cancel it is
the deleted invoice that keeps a session from being paid. -/
namespace Payknot
open GoText Interleaving Machine

variable {p : Platform} {init cfg after : Service} {label : ServiceLabel}

def stateOf (w : World) (id : String) : Option SessionState :=
  (w.sessions.find? (·.id = id)).map (·.state)

def referenceOf (w : World) (id : String) : Option String :=
  (w.sessions.find? (·.id = id)).map (·.reference)

def Touches (p : Platform) (id : String) (op : Op) : Prop :=
  ∃ text state, op = .sql (.setSessionState text state) ∧ p.uuidText text = some id

def SetsPaid (op : Op) : Prop := ∃ text signature, op = .sql (.setSessionPaid text signature)

/-- The invoice is gone, and whoever has read it will not mark a session paid. -/
structure Gone (cfg : Service) (key : String) : Prop where
  cache : ∀ cached ∈ cfg.world.cache, cached.key ≠ key
  readers : ∀ thread ∈ cfg.threads, ∀ hash, thread.log.Saw (.redis (.hGetAll key)) (.ok (some hash)) →
    ¬ thread.program.May SetsPaid

/-- A session is marked paid while no other request that has read it may still give it
another state; a cancel deletes the invoice, without failing, while nobody who has read
it may still mark a session paid; and a cancel that finds an earlier answer under its
idempotency key finds the invoice gone. -/
structure SettlesLast (p : Platform) (cfg : Service) (label : ServiceLabel) : Prop where
  arrivals : offers Request.changesSession cfg label = true
  paid : ∀ index thread text signature id,
    Performs cfg label index thread (.sql (.setSessionPaid text signature)) →
    p.uuidText text = some id →
    Others cfg index fun other => other.log ≠ [] → ¬ other.program.May (Touches p id)
  cancelled : ∀ index choice thread key, label = .step index choice →
    Performs cfg label index thread (.redis (.del key)) → thread.request.isCancel = true →
    choice.fault = none ∧ Others cfg index fun other => ∀ hash,
      other.log.Saw (.redis (.hGetAll key)) (.ok (some hash)) → ¬ other.program.May SetsPaid
  replayed : ∀ index thread ownerEmail idemKey endpoint text session,
    Performs cfg label index thread (.sql (.loadIdempotent ownerEmail idemKey endpoint)) →
    thread.request.isCancel = true → FirstRead thread.log text session →
    (cfg.world.records.any fun row => row.ownerEmail = ownerEmail && row.idemKey = idemKey &&
      row.endpoint = endpoint) = true →
    Gone cfg (redisKey session.reference)

section Orderly
variable {log : History} {Result : Type}

def Unsettled (log : History) : Prop := ∀ entry ∈ log, ¬ SetsPaid entry.op

def Orderly (log : History) (op : Op) : Prop :=
  ∀ text state, op = .sql (.setSessionState text state) → Unsettled log

theorem Unsettled.cons {op : Op} (unsettled : Unsettled log) (quiet : ¬ SetsPaid op)
    (reply : Reply op) : Unsettled (⟨op, reply⟩ :: log) := by
  intro entry member
  rcases List.mem_cons.mp member with rfl | older
  · exact quiet
  · exact unsettled entry older

theorem not_setsPaid {request : Request} {op : Op} (issues : Issues p request log op)
    (other : request.isV1Finaliser = false) : ¬ SetsPaid op := by
  rintro ⟨text, signature, rfl⟩
  have v1 := issues.1
  rw [other] at v1
  cases v1

theorem orderly_of_issues {request : Request} {op : Op} (issues : Issues p request log op)
    (submit : request.isSubmit = false) (cancel : request.isCancel = false) : Orderly log op := by
  rintro text state rfl
  obtain ⟨session, _, _, ⟨_, wrong⟩ | ⟨_, wrong⟩⟩ := issues
  · rw [cancel] at wrong
    cases wrong
  · rw [submit] at wrong
    cases wrong

-- No part of a handler that is warranted for any request changes a session.
theorem orderly_of_along (p : Platform) {program : Handler Result} {done : History → Result → Prop}
    (along : program.Along (Issues p .recoverErrorInvoices) done log) (unsettled : Unsettled log) :
    program.Along Orderly (fun after _ => Unsettled after) log := by
  have kept := along.keeps unsettled fun log op reply issues unsettled =>
    unsettled.cons (not_setsPaid issues rfl) reply
  exact kept.mono (fun _ _ unsettled _ _ _ => unsettled) fun _ _ held => held.2

theorem orderly_finalizePaidCheckout (reference signature : String) (invoiceData : InvoiceHash)
    (amount : Int64) (unsettled : Unsettled log) :
    (finalizePaidCheckout p reference signature invoiceData amount).Along Orderly
      (fun after _ => Unsettled after) log := by
  unfold finalizePaidCheckout
  generalize parseInt invoiceData.eventId = event
  cases event with
  | error text => simpa using unsettled
  | ok eventID =>
      dsimp only
      generalize orDefault invoiceData.participantData "\x7b\x7d" = data
      generalize orDefault invoiceData.walletAddress "unknown_wallet" = walletAddress
      generalize orDefault invoiceData.paymentMethod "wallet" = paymentMethod
      refine (orderly_of_along p (along_checkEmail eventID (some reference) _) unsettled).sequence
        fun after result _ unsettled => ?_
      cases result with
      | error text => simpa using unsettled
      | ok _ =>
          simp only [along_sql]
          refine ⟨by simp [Orderly], fun paid => ?_⟩
          have quiet : ¬ SetsPaid (.sql (.upsertPaidInvoice walletAddress reference signature amount)) := by
            simp [SetsPaid]
          have unsettled := unsettled.cons quiet paid
          cases paid with
          | error fault => simpa using unsettled
          | ok _ =>
              simp only [along_sql]
              refine ⟨by simp [Orderly], fun written => ?_⟩
              have quiet : ¬ SetsPaid (.sql (.upsertPaidCheckout ⟨eventID, walletAddress, reference,
                  signature, amount, data, paymentMethod⟩)) := by
                simp [SetsPaid]
              have unsettled := unsettled.cons quiet written
              cases written <;> simpa using unsettled

-- Both failure branches come before the session is marked paid.
theorem orderly_failAttempt (id signature text : String) (unsettled : Unsettled log) :
    (failAttempt id signature text).Along Orderly (fun after _ => Unsettled after) log := by
  unfold failAttempt
  simp only [along_sql]
  refine ⟨by simp [Orderly], fun attempted => ?_⟩
  have quiet : ¬ SetsPaid (.sql (.insertFailedAttempt id signature (truncateErrorMessage text 500))) := by
    simp [SetsPaid]
  have unsettled := unsettled.cons quiet attempted
  refine ⟨fun _ _ _ => unsettled, fun failed => ?_⟩
  have quiet : ¬ SetsPaid (.sql (.setSessionState id .failed)) := by simp [SetsPaid]
  simpa using unsettled.cons quiet failed

-- After the last upsert no state but paid is written.
theorem orderly_settleSession (id signature reference : String) :
    (settleSession id signature reference).Along Orderly (fun _ _ => True) log := by
  simp [settleSession, Orderly]

-- What is warranted for any request writes no state, whatever came before.
theorem orderly_anywhere (p : Platform) {program : Handler Result} {done : History → Result → Prop}
    (along : program.Along (Issues p .recoverErrorInvoices) done log) :
    program.Along Orderly (fun _ _ => True) log :=
  along.mono (fun _ _ issues => orderly_of_issues issues rfl rfl) fun _ _ _ => trivial

theorem orderly_replayed (ownerEmail idemKey endpoint : String) (unsettled : Unsettled log) :
    (replayed ownerEmail idemKey endpoint).Along Orderly (fun after _ => Unsettled after) log := by
  unfold replayed loadIdempotentResponse
  split
  · split
    · simpa using unsettled
    · simp only [along_sql]
      refine ⟨by simp [Orderly], fun loaded => ?_⟩
      have quiet : ¬ SetsPaid (.sql (.loadIdempotent ownerEmail idemKey endpoint)) := by
        simp [SetsPaid]
      have unsettled := unsettled.cons quiet loaded
      rcases loaded with fault | (_ | content) <;> simpa using unsettled
  · simpa using unsettled

theorem orderly_remember (ownerEmail idemKey endpoint : String) (payload : Content) :
    (remember ownerEmail idemKey endpoint payload).Along Orderly (fun _ _ => True) log := by
  unfold remember saveIdempotentResponse
  split
  · split <;> simp [Orderly]
  · simp

theorem orderly_submit (r : V1Request) :
    (v1SubmitSignature p r).Along Orderly (fun _ _ => True) [] := by
  unfold v1SubmitSignature
  split
  · simp
  · dsimp only
    split
    · split
      · simp
      · simp only [along_sql]
        refine ⟨by simp [Orderly], ?_⟩
        rintro (fault | (_ | session))
        · simp
        · simp
        · dsimp only
          refine (orderly_replayed _ _ _ ?_).sequence fun first response _ unsettled => ?_
          · simp [Unsettled, SetsPaid]
          · cases response with
            | some content => simp
            | none =>
                dsimp only
                split
                · simp
                · simp only [along_sql]
                  refine ⟨fun _ _ _ => unsettled, fun verifying => ?_⟩
                  have quiet : ¬ SetsPaid (.sql (.setSessionState (sessionID r.path "/submit-signature")
                      .verifying)) := by
                    simp [SetsPaid]
                  have unsettled := unsettled.cons quiet verifying
                  simp only [along_redis]
                  refine ⟨by simp [Orderly], fun cached => ?_⟩
                  have quiet : ¬ SetsPaid (.redis (.hGetAll (redisKey session.reference))) := by
                    simp [SetsPaid]
                  have unsettled := unsettled.cons quiet cached
                  rcases cached with fault | (_ | stored)
                  · simp
                  · simp
                  · refine (orderly_of_along p (along_verifyTransaction _ _ _ _) unsettled).sequence
                      fun after verdict _ unsettled => ?_
                    cases verdict with
                    | panicked => simp
                    | rejected text =>
                        refine (orderly_failAttempt _ _ _ unsettled).sequence fun _ _ _ _ => ?_
                        exact (orderly_anywhere p (along_emitPaymentWebhook _ _)).sequence
                          fun _ _ _ _ => by simp
                    | accepted sender =>
                        refine (orderly_finalizePaidCheckout _ _ _ _ unsettled).sequence
                          fun later result _ unsettled => ?_
                        cases result with
                        | error text =>
                            refine (orderly_failAttempt _ _ _ unsettled).sequence fun _ _ _ _ => ?_
                            exact (orderly_anywhere p (along_emitPaymentWebhook _ _)).sequence
                              fun _ _ _ _ => by simp
                        | ok _ =>
                            refine (orderly_settleSession _ _ _).sequence fun _ _ _ _ => ?_
                            refine (orderly_anywhere p (along_getCheckoutStatus _)).sequence
                              fun _ _ _ _ => ?_
                            refine (orderly_remember _ _ _ _).sequence
                              fun _ _ _ _ => ?_
                            exact (orderly_anywhere p (along_emitPaymentWebhook _ _)).sequence
                              fun _ _ _ _ => by simp
    · simp

theorem orderly_handler (request : Request) :
    (handler p request).Along Orderly (fun _ _ => True) [] := by
  have careful := @handlers_careful p request
  by_cases submit : request.isSubmit = true
  · cases request with
    | v1SubmitSignature r => exact orderly_submit r
    | _ => cases submit
  · by_cases cancel : request.isCancel = true
    · -- A cancel never marks a session paid.
      have other : request.isV1Finaliser = false := by
        cases request <;> first | rfl | cases cancel
      have start : Unsettled [] := by simp [Unsettled]
      have kept := careful.keeps start fun log op reply issues unsettled =>
        unsettled.cons (not_setsPaid issues other) reply
      exact kept.mono (fun _ _ unsettled _ _ _ => unsettled) fun _ _ _ => trivial
    · exact careful.mono (fun _ _ issues => orderly_of_issues issues (by simpa using submit)
        (by simpa using cancel)) fun _ _ _ => trivial

end Orderly

section Cancelling
variable {log : History}

/-- The request has deleted the session's invoice, or answers as an earlier one did. -/
def Closes (log : History) (reference : String) : Prop :=
  (∃ reply, log.Saw (.redis (.del (redisKey reference))) reply) ∨
    ∃ ownerEmail idemKey endpoint content,
      log.Saw (.sql (.loadIdempotent ownerEmail idemKey endpoint)) (.ok (some content))

theorem Closes.mono {later : History} {reference : String} (closes : Closes log reference)
    (grown : log <:+ later) : Closes later reference := by
  rcases closes with ⟨reply, deleted⟩ | ⟨ownerEmail, idemKey, endpoint, content, loaded⟩
  · exact .inl ⟨reply, deleted.mono grown⟩
  · exact .inr ⟨ownerEmail, idemKey, endpoint, content, loaded.mono grown⟩

def CancelAnswers (request : Request) (log : History) (answer : Answer) : Prop :=
  ∀ r, request = .v1Cancel r → answer = .responded 200 .cancelled →
    ∃ session, FirstRead log (sessionID r.path "/cancel") session ∧ Closes log session.reference

theorem cancel_answers (r : V1Request) :
    (v1CancelPaymentSession p r).Along (fun _ _ => True)
      (fun after answer => answer = .responded 200 .cancelled → ∃ session,
        FirstRead after (sessionID r.path "/cancel") session ∧ Closes after session.reference) [] := by
  unfold v1CancelPaymentSession
  split
  · simp [httpError]
  · simp only [along_sql, true_and]
    rintro (fault | (_ | session))
    · simp [httpError]
    · simp [httpError]
    · dsimp only
      have read : FirstRead [⟨.sql (.selectSession (sessionID r.path "/cancel")), .ok (some session)⟩]
          (sessionID r.path "/cancel") session := List.suffix_refl _
      refine (replayed_saw _ _ _).sequence fun first response grown saw => ?_
      cases response with
      | some content =>
          simp only [Program.along_pure]
          exact fun _ => ⟨session, read.trans grown, .inr ⟨_, _, _, content, saw content rfl⟩⟩
      | none =>
          dsimp only
          split
          · simp [httpError]
          · simp only [along_sql, along_redis, true_and]
            intro changed removed deleted
            have closes : Closes (⟨.redis (.del (redisKey session.reference)), deleted⟩ ::
                ⟨.sql (.deletePendingCheckout session.reference), removed⟩ ::
                ⟨.sql (.setSessionState (sessionID r.path "/cancel") .cancelled), changed⟩ :: first)
                session.reference := .inl ⟨deleted, List.mem_cons_self⟩
            refine (Program.along_grows _ _).sequence fun second _ more _ => ?_
            refine (Program.along_grows _ _).sequence fun third _ further _ => ?_
            simp only [Program.along_pure]
            have read : FirstRead first (sessionID r.path "/cancel") session := read.trans grown
            exact fun _ => ⟨session, (((read.cons _).cons _).cons _).trans (more.trans further),
              closes.mono (more.trans further)⟩

abbrev Proceeding (cfg : Service) : Prop := Disciplined (fun _ => Orderly) CancelAnswers cfg

theorem proceeding_next (proceeding : Proceeding cfg)
    (stepped : (machine p).next cfg label = some after) : Proceeding after := by
  refine disciplined_next (fun request => ?_) proceeding stepped
  have orderly := @orderly_handler p request
  by_cases cancel : request.isCancel = true
  · cases request with
    | v1Cancel r =>
        refine (orderly.and (cancel_answers r)).mono (fun _ _ both => both.1) fun _ _ both => ?_
        rintro other same answered
        cases same
        exact both.2 answered
    | _ => cases cancel
  · refine orderly.mono (fun _ _ orderly => orderly) fun _ _ _ => ?_
    rintro r rfl _
    exact absurd rfl cancel

end Cancelling

section Sessions
variable {choice : Choice} {op : Op} {w later : World} {reply : Reply op}

theorem find_updateWhere {set : SessionRow → SessionRow} (same_id : ∀ row, (set row).id = row.id)
    (rows : List SessionRow) (canonical id : String) :
    (updateWhere (·.id = canonical) set rows).find? (·.id = id) =
      (rows.find? (·.id = id)).map fun row => if row.id = canonical then set row else row := by
  unfold updateWhere
  rw [List.find?_map]
  have same : ((fun row : SessionRow => decide (row.id = id)) ∘
      fun row => if (decide (row.id = canonical)) = true then set row else row) =
      fun row => decide (row.id = id) := by
    funext row
    by_cases chosen : row.id = canonical
    · simp [chosen, same_id]
    · simp [chosen]
  rw [same]
  simp

-- What a session endpoint can do to a session: nothing, another state, or paid.
theorem session_cases (executed : exec p choice op w = some (reply, later))
    (no_insert : ∀ session, op ≠ .sql (.insertSession session))
    (no_delete : ∀ id ownerEmail, op ≠ .sql (.deleteEvent id ownerEmail)) (id : String) :
    referenceOf later id = referenceOf w id ∧
    (stateOf later id = stateOf w id ∨
    (∃ text state, op = .sql (.setSessionState text state) ∧ p.uuidText text = some id ∧
      stateOf later id = (stateOf w id).map fun _ => state) ∨
    (∃ text signature, op = .sql (.setSessionPaid text signature) ∧ p.uuidText text = some id ∧
      stateOf later id = (stateOf w id).map fun _ => .paid)) := by
  unfold stateOf referenceOf
  rcases exec_sessions executed with unchanged | ⟨session, _, _, _, rfl, _⟩ |
    ⟨text, canonical, state, rfl, cast, updated⟩ | ⟨text, canonical, signature, rfl, cast, updated⟩ |
    ⟨eventId, ownerEmail, rfl, _⟩
  · rw [unchanged]
    exact ⟨rfl, .inl rfl⟩
  · exact absurd rfl (no_insert session)
  · rw [updated, find_updateWhere (by simp)]
    cases found : w.sessions.find? (·.id = id) with
    | none => simp
    | some row =>
        have same : row.id = id := by simpa using List.find?_some found
        by_cases here : id = canonical
        · subst here
          refine ⟨by simp [same], .inr (.inl ⟨text, state, rfl, cast, by simp [same]⟩)⟩
        · refine ⟨by simp [same, here], .inl (by simp [same, here])⟩
  · rw [updated, find_updateWhere (by simp)]
    cases found : w.sessions.find? (·.id = id) with
    | none => simp
    | some row =>
        have same : row.id = id := by simpa using List.find?_some found
        by_cases here : id = canonical
        · subst here
          refine ⟨by simp [same], .inr (.inr ⟨text, signature, rfl, cast, by simp [same]⟩)⟩
        · refine ⟨by simp [same, here], .inl (by simp [same, here])⟩
  · exact absurd rfl (no_delete eventId ownerEmail)

-- Session endpoints neither open sessions nor delete events.
theorem session_ops (warranted : Warranted p cfg) (served : Served Request.changesSession cfg)
    {thread : ServiceThread} (present : thread ∈ cfg.threads) (suspended : thread.Issues op) :
    (∀ session, op ≠ .sql (.insertSession session)) ∧
    (∀ id ownerEmail, op ≠ .sql (.deleteEvent id ownerEmail)) ∧
    ∀ key hash, op ≠ .redis (.hSet key hash) := by
  have issues := warranted.issues present suspended
  have offered := served thread present
  have closed : thread.request.opensSession = false := by
    generalize thread.request = request at offered
    cases request <;> first | rfl | cases offered
  refine ⟨?_, ?_, ?_⟩
  · rintro session rfl
    have opens := issues.1
    rw [closed] at opens
    cases opens
  · rintro id ownerEmail rfl
    rw [issues.1] at offered
    cases offered
  · rintro key hash rfl
    have opens := issues.1
    rw [closed] at opens
    cases opens

theorem firstRead_cons {entry : Entry Reply} {log : History} {text : String} {session : SessionRow}
    (read : FirstRead (entry :: log) text session) :
    (log = [] ∧ entry = ⟨.sql (.selectSession text), .ok (some session)⟩) ∨
      FirstRead log text session := by
  rcases List.suffix_cons_iff.mp read with whole | older
  · simp only [List.cons.injEq] at whole
    exact .inl ⟨whole.2.symm, whole.1.symm⟩
  · exact .inr older

theorem FirstRead.nonempty {log : History} {text : String} {session : SessionRow}
    (read : FirstRead log text session) : log ≠ [] := by
  rintro rfl
  simp [FirstRead] at read

-- A read tells the state the session has at that moment.
theorem selected {text : String} {session : SessionRow}
    (executed : exec p choice (.sql (.selectSession text)) w = some (.ok (some session), later))
    {id : String} (cast : p.uuidText text = some id) :
    stateOf w id = some session.state ∧ referenceOf w id = some session.reference := by
  rcases exec_sql executed with ⟨_, wrong, _⟩ | ⟨value, same, ran⟩
  · cases wrong
  · cases same
    obtain ⟨canonical, also, ran⟩ := withSessionId_ok ran
    rw [cast, Option.some.injEq] at also
    subst also
    simp only [Except.ok.injEq, Prod.mk.injEq] at ran
    simp [stateOf, referenceOf, ran.1]

end Sessions

section Absorbing

/-- The invariant: nobody who has read a paid session may still change it, whoever has
read a session knows its reference, and a closed session's invoice is gone for good. -/
structure Absorbing (p : Platform) (cfg : Service) : Prop where
  warranted : Warranted p cfg
  served : Served Request.changesSession cfg
  proceeding : Proceeding cfg
  paid : ∀ id, stateOf cfg.world id = some .paid → ∀ thread ∈ cfg.threads, thread.log ≠ [] →
    ¬ thread.program.May (Touches p id)
  named : ∀ thread ∈ cfg.threads, ∀ text session id, FirstRead thread.log text session →
    p.uuidText text = some id → referenceOf cfg.world id = some session.reference
  closed : ∀ thread ∈ cfg.threads, thread.request.isCancel = true → ∀ text session,
    FirstRead thread.log text session → Closes thread.log session.reference →
    Gone cfg (redisKey session.reference)

variable (absorbing : Absorbing p cfg)
include absorbing

-- What a step does to the sessions, with the request that does it.
theorem Absorbing.session_step (stepped : (machine p).next cfg label = some after) (id : String) :
    referenceOf after.world id = referenceOf cfg.world id ∧
    (stateOf after.world id = stateOf cfg.world id ∨
    (∃ index thread text state, Performs cfg label index thread (.sql (.setSessionState text state)) ∧
      p.uuidText text = some id ∧ state ≠ .paid ∧
      stateOf after.world id = (stateOf cfg.world id).map fun _ => state) ∨
    (∃ index thread text signature,
      Performs cfg label index thread (.sql (.setSessionPaid text signature)) ∧
      p.uuidText text = some id ∧
      stateOf after.world id = (stateOf cfg.world id).map fun _ => .paid)) := by
  rcases next_cases stepped with ⟨request, rfl, rfl⟩ | ⟨event, world, rfl, occurred, rfl⟩ |
    ⟨index, choice, thread, op, rest, reply, world, rfl, at_index, program, executed, same⟩
  · exact ⟨rfl, .inl rfl⟩
  · have unchanged := occur_frame .sessions occurred (by decide)
    unfold stateOf referenceOf
    rw [unchanged]
    exact ⟨rfl, .inl rfl⟩
  · have present := List.mem_of_getElem? at_index
    have suspended : thread.Issues op := ⟨rest, program⟩
    have performs : Performs cfg (.step index choice : ServiceLabel) index thread op :=
      ⟨⟨choice, rfl⟩, at_index, suspended⟩
    obtain ⟨no_insert, no_delete, _⟩ :=
      session_ops absorbing.warranted absorbing.served present suspended
    rw [same]
    obtain ⟨reference, unchanged | ⟨text, state, rfl, cast, changed⟩ |
      ⟨text, signature, rfl, cast, changed⟩⟩ := session_cases executed no_insert no_delete id
    · exact ⟨reference, .inl unchanged⟩
    · obtain ⟨session, _, _, ⟨rfl, _⟩ | ⟨rfl | rfl, _⟩⟩ :=
        absorbing.warranted.issues present suspended
      · exact ⟨reference, .inr (.inl ⟨index, thread, text, _, performs, cast, by simp, changed⟩)⟩
      · exact ⟨reference, .inr (.inl ⟨index, thread, text, _, performs, cast, by simp, changed⟩)⟩
      · exact ⟨reference, .inr (.inl ⟨index, thread, text, _, performs, cast, by simp, changed⟩)⟩
    · exact ⟨reference, .inr (.inr ⟨index, thread, text, signature, performs, cast, changed⟩)⟩

theorem Absorbing.paid_kept (stepped : (machine p).next cfg label = some after) {id : String}
    (paid : stateOf cfg.world id = some .paid) : stateOf after.world id = some .paid := by
  obtain ⟨_, unchanged | ⟨index, thread, text, state, performs, cast, _, _⟩ |
    ⟨index, thread, text, signature, _, _, changed⟩⟩ := absorbing.session_step stepped id
  · rw [unchanged]
    exact paid
  · -- Whoever changes the state has read it as unpaid.
    have present := List.mem_of_getElem? performs.2.1
    obtain ⟨session, read, _⟩ := absorbing.warranted.issues present performs.2.2
    obtain ⟨rest, program⟩ := performs.2.2
    refine absurd ?_ (absorbing.paid id paid thread present read.nonempty)
    rw [program]
    exact .inl ⟨text, state, rfl, cast⟩
  · rw [changed, paid]
    rfl

theorem Absorbing.named_next (stepped : (machine p).next cfg label = some after) :
    ∀ thread ∈ after.threads, ∀ text session id, FirstRead thread.log text session →
      p.uuidText text = some id → referenceOf after.world id = some session.reference := by
  intro current member text session id read cast
  rw [(absorbing.session_step stepped id).1]
  obtain ⟨index, found⟩ := List.mem_iff_getElem?.mp member
  rcases thread_after stepped found with old | ⟨request, _, rfl, _⟩ |
    ⟨choice, thread, op, rest, reply, rfl, at_index, program, executed, rfl⟩
  · exact absorbing.named current (List.mem_of_getElem? old) text session id read cast
  · exact absurd rfl read.nonempty
  · rcases firstRead_cons read with ⟨_, first⟩ | earlier
    · cases first
      exact (selected executed cast).2
    · exact absorbing.named thread (List.mem_of_getElem? at_index) text session id earlier cast

theorem Absorbing.paid_next (settles : SettlesLast p cfg label)
    (stepped : (machine p).next cfg label = some after) :
    ∀ id, stateOf after.world id = some .paid → ∀ thread ∈ after.threads, thread.log ≠ [] →
      ¬ thread.program.May (Touches p id) := by
  intro id paid current member begun
  obtain ⟨index, found⟩ := List.mem_iff_getElem?.mp member
  have warranted := warranted_next absorbing.warranted stepped
  have proceeding := proceeding_next absorbing.proceeding stepped
  -- A request that goes on may do no more than before; one that begins reads the state.
  have still (before : stateOf cfg.world id = some .paid) : ¬ current.program.May (Touches p id) := by
    rcases thread_after stepped found with old | ⟨request, _, rfl, _⟩ |
      ⟨choice, thread, op, rest, reply, rfl, at_index, program, executed, rfl⟩
    · exact absorbing.paid id before current (List.mem_of_getElem? old) begun
    · exact absurd rfl begun
    · have present := List.mem_of_getElem? at_index
      by_cases first : thread.log = []
      · intro may
        obtain ⟨later, issued, grown, ⟨text, state, rfl, cast⟩, issues⟩ :=
          (warranted _ member).may may
        obtain ⟨session, read, unpaid, _⟩ := issues
        have only : FirstRead [⟨op, reply⟩] text session := by
          have whole : [(⟨op, reply⟩ : Entry Reply)] <:+ later := by
            simpa [Thread.resumed, first] using grown
          have same := (List.suffix_of_suffix_length_le read whole (by simp)).eq_of_length (by simp)
          rw [← same]
          exact List.suffix_refl _
        rcases firstRead_cons only with ⟨_, entry⟩ | nothing
        · cases entry
          have state := (selected executed cast).1
          rw [before, Option.some.injEq] at state
          exact unpaid state.symm
        · exact nothing.nonempty rfl
      · intro may
        refine absorbing.paid id before thread present first ?_
        rw [program]
        exact .inr ⟨reply, may⟩
  obtain ⟨_, unchanged | ⟨_, _, _, state, _, _, other, changed⟩ |
    ⟨moved, thread, text, signature, performs, cast, changed⟩⟩ := absorbing.session_step stepped id
  · rw [unchanged] at paid
    exact still paid
  · rw [changed] at paid
    cases known : stateOf cfg.world id with
    | none => simp [known] at paid
    | some _ =>
        rw [known, Option.map_some, Option.some.injEq] at paid
        exact absurd paid other
  · obtain ⟨⟨choice, rfl⟩, at_moved, rest, program⟩ := performs
    rcases thread_after stepped found with old | ⟨request, arrival, _, _⟩ |
      ⟨_, thread', op, rest', reply, same, at_index, program', _, rfl⟩
    · exact settles.paid moved thread text signature id ⟨⟨choice, rfl⟩, at_moved, rest, program⟩ cast
        index current (old_elsewhere stepped old found) old begun
    · cases arrival
    · cases same
      rw [at_moved, Option.some.injEq] at at_index
      subst at_index
      rw [program] at program'
      cases program'
      intro may
      obtain ⟨later, issued, grown, ⟨other, state, rfl, _⟩, orderly⟩ := (proceeding _ member).may may
      exact orderly other state rfl _ (grown.subset List.mem_cons_self) ⟨text, signature, rfl⟩

end Absorbing

section Closed

-- A cached invoice found by its key has that key.
theorem exec_del {choice : Choice} {w later : World} {key : String} {reply : Reply (.redis (.del key))}
    (executed : exec p choice (.redis (.del key)) w = some (reply, later))
    (sound : choice.fault = none) : later.cache = w.cache.filter (·.key ≠ key) := by
  simp only [exec, sound, settle, Redis.run, Option.some.injEq, Prod.mk.injEq] at executed
  rw [← executed.2]

theorem record_of_load {choice : Choice} {w later : World} {ownerEmail idemKey endpoint : String}
    {content : Content}
    (executed : exec p choice (.sql (.loadIdempotent ownerEmail idemKey endpoint)) w =
      some (.ok (some content), later)) :
    (w.records.any fun row => row.ownerEmail = ownerEmail && row.idemKey = idemKey &&
      row.endpoint = endpoint) = true := by
  rcases exec_sql executed with ⟨_, wrong, _⟩ | ⟨value, same, ran⟩
  · cases wrong
  · cases same
    simp only [Sql.run, Except.ok.injEq, Prod.mk.injEq, Option.map_eq_some_iff] at ran
    obtain ⟨⟨row, found, _⟩, _⟩ := ran
    have among := List.mem_of_find?_eq_some found
    exact List.any_eq_true.mpr ⟨row, among, by simpa using List.find?_some found⟩

-- Session endpoints never bring an invoice back.
theorem gone_kept (warranted : Warranted p cfg) (served : Served Request.changesSession cfg)
    {key : String} (gone : Gone cfg key) (stepped : (machine p).next cfg label = some after) :
    Gone after key := by
  constructor
  · intro cached member
    rcases next_cases stepped with ⟨request, rfl, rfl⟩ | ⟨event, world, rfl, occurred, rfl⟩ |
      ⟨index, choice, thread, op, rest, reply, world, rfl, at_index, program, executed, same⟩
    · exact gone.cache cached member
    · exact gone.cache cached (occur_cache occurred member)
    · rw [same] at member
      rcases exec_cache executed with unchanged | ⟨other, hash, rfl, _⟩ | ⟨other, ttl, rfl, moved⟩ |
        ⟨other, rfl, removed⟩
      · rw [unchanged] at member
        exact gone.cache cached member
      · have quiet := session_ops warranted served (List.mem_of_getElem? at_index) ⟨rest, program⟩
        exact absurd rfl (quiet.2.2 other hash)
      · rw [moved] at member
        obtain ⟨before, among, ⟨_, rfl⟩ | ⟨_, rfl⟩⟩ := mem_updateWhere member
        · exact gone.cache before among
        · exact gone.cache cached among
      · rw [removed] at member
        exact gone.cache cached (List.mem_filter.mp member).1
  · intro current member hash saw
    obtain ⟨index, found⟩ := List.mem_iff_getElem?.mp member
    rcases thread_after stepped found with old | ⟨request, _, rfl, _⟩ |
      ⟨choice, thread, op, rest, reply, rfl, at_index, program, executed, rfl⟩
    · exact gone.readers current (List.mem_of_getElem? old) hash saw
    · exact absurd saw (by simp [Log.Saw])
    · rcases List.mem_cons.mp saw with here | earlier
      · -- Nobody finds it any more.
        cases here
        obtain ⟨cached, among, same⟩ := cached_of_read (p := p) executed
        exact absurd same (gone.cache cached among)
      · intro may
        refine gone.readers thread (List.mem_of_getElem? at_index) hash earlier ?_
        rw [program]
        exact .inr ⟨reply, may⟩

/-- A cancel's DEL, met while no reader of the invoice may still settle the session. -/
theorem gone_of_del (warranted : Warranted p cfg) (settles : SettlesLast p cfg label)
    {index : Nat} {choice : Choice} {thread : ServiceThread} {key : String}
    {rest : Reply (.redis (.del key)) → Handler Answer} {reply : Reply (.redis (.del key))}
    (moves : label = .step index choice) (at_index : cfg.threads[index]? = some thread)
    (program : thread.program = .call (.redis (.del key)) rest)
    (cancel : thread.request.isCancel = true)
    (executed : exec p choice (.redis (.del key)) cfg.world = some (reply, after.world))
    (stepped : (machine p).next cfg label = some after)
    (resumed : after.threads[index]? = some (thread.resumed _ reply rest)) : Gone after key := by
  subst moves
  obtain ⟨sound, others⟩ := settles.cancelled index choice thread key rfl
    ⟨⟨choice, rfl⟩, at_index, rest, program⟩ cancel
  constructor
  · intro cached member
    rw [exec_del executed sound] at member
    simpa using (List.mem_filter.mp member).2
  · intro current member hash saw
    obtain ⟨place, found⟩ := List.mem_iff_getElem?.mp member
    by_cases own : place = index
    · -- A cancel marks no session paid.
      subst own
      rw [resumed, Option.some.injEq] at found
      subst found
      intro may
      obtain ⟨_, _, _, sets, issues⟩ :=
        ((warranted_next warranted stepped) _ (List.mem_of_getElem? resumed)).may may
      have other : thread.request.isV1Finaliser = false := by
        generalize thread.request = request at cancel
        cases request <;> first | rfl | cases cancel
      exact not_setsPaid issues other sets
    · rcases thread_after stepped found with old | ⟨request, _, rfl, _⟩ |
        ⟨_, _, _, _, _, same, _, _, _, _⟩
      · exact others place current own old hash saw
      · exact absurd saw (by simp [Log.Saw])
      · cases same
        exact absurd rfl own

theorem Absorbing.closed_next (absorbing : Absorbing p cfg) (settles : SettlesLast p cfg label)
    (stepped : (machine p).next cfg label = some after) :
    ∀ thread ∈ after.threads, thread.request.isCancel = true → ∀ text session,
      FirstRead thread.log text session → Closes thread.log session.reference →
      Gone after (redisKey session.reference) := by
  have kept {key : String} (gone : Gone cfg key) : Gone after key :=
    gone_kept absorbing.warranted absorbing.served gone stepped
  intro current member cancel text session read closes
  obtain ⟨index, found⟩ := List.mem_iff_getElem?.mp member
  rcases thread_after stepped found with old | ⟨request, _, rfl, _⟩ |
    ⟨choice, thread, op, rest, reply, moves, at_index, program, executed, rfl⟩
  · exact kept (absorbing.closed current (List.mem_of_getElem? old) cancel text session read closes)
  · exact absurd rfl read.nonempty
  · have present := List.mem_of_getElem? at_index
    have suspended : thread.Issues op := ⟨rest, program⟩
    rcases firstRead_cons read with ⟨began, first⟩ | earlier
    · -- Its first statement closes nothing.
      cases first
      rcases closes with ⟨_, deleted⟩ | ⟨_, _, _, _, loaded⟩
      · simp [Log.Saw, Thread.resumed, began] at deleted
      · simp [Log.Saw, Thread.resumed, began] at loaded
    · have before (closed : Closes thread.log session.reference) :
          Gone after (redisKey session.reference) :=
        kept (absorbing.closed thread present cancel text session earlier closed)
      rcases closes with ⟨answer, deleted⟩ | ⟨ownerEmail, idemKey, endpoint, content, loaded⟩
      · rcases List.mem_cons.mp deleted with now | past
        · cases now
          exact gone_of_del absorbing.warranted settles moves at_index program cancel executed stepped found
        · exact before (.inl ⟨answer, past⟩)
      · rcases List.mem_cons.mp loaded with now | past
        · cases now
          refine kept (settles.replayed index thread ownerEmail idemKey endpoint text session
            ⟨⟨choice, moves⟩, at_index, suspended⟩ cancel earlier ?_)
          exact record_of_load executed
        · exact before (.inr ⟨ownerEmail, idemKey, endpoint, content, past⟩)

theorem absorbing_next (absorbing : Absorbing p cfg) (settles : SettlesLast p cfg label)
    (stepped : (machine p).next cfg label = some after) : Absorbing p after where
  warranted := warranted_next absorbing.warranted stepped
  served := served_next absorbing.served settles.arrivals stepped
  proceeding := proceeding_next absorbing.proceeding stepped
  paid := absorbing.paid_next settles stepped
  named := absorbing.named_next stepped
  closed := absorbing.closed_next settles stepped

theorem absorbing_start (start : init.threads = []) : Absorbing p init where
  warranted := warranted_start start
  served := by simp [Served, start]
  proceeding := by simp [Disciplined, start]
  paid := by simp [start]
  named := by simp [start]
  closed := by simp [start]

theorem Absorbing.unpaid_kept (absorbing : Absorbing p cfg) {id reference : String}
    (named : referenceOf cfg.world id = some reference) (gone : Gone cfg (redisKey reference))
    (stepped : (machine p).next cfg label = some after)
    (paid : stateOf after.world id = some .paid) : stateOf cfg.world id = some .paid := by
  obtain ⟨_, unchanged | ⟨_, _, _, state, _, _, other, changed⟩ |
    ⟨index, thread, text, signature, performs, cast, _⟩⟩ := absorbing.session_step stepped id
  · rw [← unchanged]
    exact paid
  · rw [changed, Option.map_eq_some_iff] at paid
    obtain ⟨_, _, same⟩ := paid
    exact absurd same other
  · have present := List.mem_of_getElem? performs.2.1
    obtain ⟨_, session, _, hash, read, _, saw, _⟩ := absorbing.warranted.issues present performs.2.2
    have same := absorbing.named thread present text session id read cast
    rw [named, Option.some.injEq] at same
    subst same
    obtain ⟨rest, program⟩ := performs.2.2
    refine absurd ?_ (gone.readers thread present hash saw)
    rw [program]
    exact .inl ⟨text, signature, rfl⟩

end Closed

def CancelAnswered (p : Platform) (cfg : Service) (id : String) : Prop :=
  ∃ thread ∈ cfg.threads, ∃ r, thread.request = .v1Cancel r ∧
    p.uuidText (sessionID r.path "/cancel") = some id ∧
    thread.program = .ret (.responded 200 .cancelled)

theorem absorbing_reached (start : init.threads = []) {last : Service}
    (run : (machine p).Reaches (SettlesLast p) init last) : Absorbing p last :=
  run.invariant _ (absorbing_start start) fun _ _ _ absorbing settles stepped =>
    absorbing_next absorbing settles stepped

/-- Where sessions settle last, a paid session stays paid and a cancelled one is never
paid afterwards, for every interleaving, any failures and any contents of the stores at
the start. -/
theorem final_states_absorbing (start : init.threads = []) {mid last : Service}
    (before : (machine p).Reaches (SettlesLast p) init mid)
    (since : (machine p).Reaches (SettlesLast p) mid last) (id : String) :
    (stateOf mid.world id = some .paid → stateOf last.world id = some .paid) ∧
      (CancelAnswered p mid id → stateOf last.world id = some .paid →
        stateOf mid.world id = some .paid) := by
  have absorbing := absorbing_reached start before
  constructor
  · intro paid
    have kept := since.invariant
      (fun cfg => Absorbing p cfg ∧ stateOf cfg.world id = some .paid) ⟨absorbing, paid⟩
      fun _ _ _ held settles stepped =>
        ⟨absorbing_next held.1 settles stepped, held.1.paid_kept stepped held.2⟩
    exact kept.2
  · rintro ⟨thread, member, r, request, cast, answered⟩
    obtain ⟨session, read, closes⟩ := absorbing.proceeding.ends member answered r request rfl
    have named := absorbing.named thread member _ session id read cast
    have gone := absorbing.closed thread member (by rw [request]; rfl) _ session read closes
    have kept := since.invariant
      (fun cfg => Absorbing p cfg ∧ referenceOf cfg.world id = some session.reference ∧
        Gone cfg (redisKey session.reference) ∧
        (stateOf cfg.world id = some .paid → stateOf mid.world id = some .paid))
      ⟨absorbing, named, gone, fun paid => paid⟩
      fun _ _ _ held settles stepped => by
        obtain ⟨absorbing, named, gone, unpaid⟩ := held
        refine ⟨absorbing_next absorbing settles stepped, ?_, ?_, ?_⟩
        · rw [(absorbing.session_step stepped id).1]
          exact named
        · exact gone_kept absorbing.warranted absorbing.served gone stepped
        · exact fun paid => unpaid (absorbing.unpaid_kept named gone stepped paid)
    exact kept.2.2.2

/-- Complete requests without failures, while no answer is recorded. -/
def settlesAlone (cfg : Service) (label : ServiceLabel) : Bool :=
  offers Request.changesSession cfg label && (cfg.world.records.isEmpty &&
    stepSucceeds Mainnet.platform cfg label)

theorem settlesLast_alone (one : AtMostOneBusy cfg) (alone : settlesAlone cfg label = true) :
    SettlesLast Mainnet.platform cfg label := by
  simp only [settlesAlone, Bool.and_eq_true, List.isEmpty_iff] at alone
  obtain ⟨arrivals, no_records, succeeds⟩ := alone
  constructor
  · exact arrivals
  · intro index thread text signature id performs _ j other elsewhere at_j _
    exact Program.May.of_finished (one.others performs j other elsewhere at_j)
  · rintro index choice thread key rfl performs _
    constructor
    · have executed := stepSucceeds_reply succeeds performs rfl
      cases fault : choice.fault with
      | none => rfl
      | some text => simp [fault, succeeded] at executed
    · intro j other elsewhere at_j hash _
      exact Program.May.of_finished (one.others performs j other elsewhere at_j)
  · intro _ _ _ _ _ _ _ _ _ _ recorded
    simp [no_records] at recorded

theorem settlesLast_reached {first last : Service} (one : AtMostOneBusy first)
    (run : (machine Mainnet.platform).Reaches
      (fun cfg label => (oneAtATime cfg label && settlesAlone cfg label) = true) first last) :
    (machine Mainnet.platform).Reaches (SettlesLast Mainnet.platform) first last ∧ AtMostOneBusy last := by
  simp only [Bool.and_eq_true] at run
  have alone := run.alone one
  exact ⟨alone.1.mono fun _ _ meets => settlesLast_alone meets.1 meets.2, alone.2⟩

def answersCancel (p : Platform) (id : String) : ServiceThread → Bool
  | ⟨.v1Cancel r, _, .ret (.responded 200 .cancelled)⟩ =>
      p.uuidText (sessionID r.path "/cancel") = some id
  | _ => false

theorem cancelAnswered_of_any {id : String} (answers : cfg.threads.any (answersCancel p id) = true) :
    CancelAnswered p cfg id := by
  obtain ⟨thread, member, answers⟩ := List.any_eq_true.mp answers
  unfold answersCancel at answers
  split at answers
  · exact ⟨_, member, _, rfl, by simpa using answers, rfl⟩
  · cases answers

open Mainnet in
/-- A submit and then a cancel, and the same two the other way round. -/
theorem final_states_absorbing_meetup :
    (∃ mid last : Service, mid.threads.length < last.threads.length ∧
      stateOf mid.world uuid3 = some .paid ∧ stateOf last.world uuid3 = some .paid) ∧
    ∃ mid last : Service, mid.threads.length < last.threads.length ∧
      CancelAnswered platform mid uuid3 ∧ stateOf last.world uuid3 ≠ some .paid := by
  let allowed (cfg : Service) (label : ServiceLabel) := oneAtATime cfg label && settlesAlone cfg label
  constructor
  · obtain ⟨mid, run, done⟩ := run_meets (machine platform) allowed
      (.arrive submit :: steps 0 12 "") (opened [landed signature1 [uuid1]])
      (fun mid => stateOf mid.world uuid3 = some .paid &&
        ((machine platform).run allowed (.arrive cancel :: steps 1 1 "") mid).any fun last =>
          mid.threads.length < last.threads.length) (by decide +kernel)
    simp only [Bool.and_eq_true, decide_eq_true_eq] at done
    obtain ⟨last, later, more⟩ := run_meets (machine platform) allowed _ mid _ done.2
    obtain ⟨before, one⟩ := settlesLast_reached (by simp [AtMostOneBusy, opened, awaiting, opening]) run
    obtain ⟨since, _⟩ := settlesLast_reached one later
    exact ⟨mid, last, by simpa using more, done.1, (final_states_absorbing rfl before since uuid3).1 done.1⟩
  · obtain ⟨mid, run, done⟩ := run_meets (machine platform) allowed
      (.arrive cancel :: steps 0 4 "") (opened [landed signature1 [uuid1]])
      (fun mid => stateOf mid.world uuid3 = some .cancelled &&
        (mid.threads.any (answersCancel platform uuid3) &&
        ((machine platform).run allowed (.arrive submit :: steps 1 1 "") mid).any fun last =>
          mid.threads.length < last.threads.length)) (by decide +kernel)
    simp only [Bool.and_eq_true, decide_eq_true_eq] at done
    obtain ⟨last, later, more⟩ := run_meets (machine platform) allowed _ mid _ done.2.2
    obtain ⟨before, one⟩ := settlesLast_reached (by simp [AtMostOneBusy, opened, awaiting, opening]) run
    obtain ⟨since, _⟩ := settlesLast_reached one later
    have answered := cancelAnswered_of_any done.2.1
    refine ⟨mid, last, by simpa using more, answered, fun paid => ?_⟩
    have before_paid := (final_states_absorbing rfl before since uuid3).2 answered paid
    rw [done.1] at before_paid
    cases before_paid

open Mainnet in
/-- A cancel that has read the session before it is paid overwrites the paid state, and a
submit that has read the invoice before a cancel deletes it pays the cancelled session. -/
theorem final_states_overwritten :
    (∃ mid last : Service,
      (machine platform).Reaches anyStep (opened [landed signature1 [uuid1]]) mid ∧
      (machine platform).Reaches anyStep mid last ∧
      stateOf mid.world uuid3 = some .paid ∧ stateOf last.world uuid3 = some .cancelled) ∧
    ∃ mid last : Service,
      (machine platform).Reaches anyStep (opened [landed signature1 [uuid1]]) mid ∧
      (machine platform).Reaches anyStep mid last ∧
      CancelAnswered platform mid uuid3 ∧ stateOf mid.world uuid3 = some .cancelled ∧
      stateOf last.world uuid3 = some .paid := by
  let allowed (_ : Service) (_ : ServiceLabel) := true
  constructor
  · obtain ⟨mid, run, done⟩ := run_meets (machine platform) allowed
      ([.arrive submit, .arrive cancel] ++ steps 1 1 "" ++ steps 0 12 "")
      (opened [landed signature1 [uuid1]])
      (fun mid => stateOf mid.world uuid3 = some .paid &&
        ((machine platform).run allowed (steps 1 1 "") mid).any fun last =>
          stateOf last.world uuid3 = some .cancelled) (by decide +kernel)
    simp only [Bool.and_eq_true, decide_eq_true_eq] at done
    obtain ⟨last, later, cancelled⟩ := run_meets (machine platform) allowed _ mid _ done.2
    exact ⟨mid, last, run.any, later.any, done.1, by simpa using cancelled⟩
  · obtain ⟨mid, run, done⟩ := run_meets (machine platform) allowed
      ([.arrive submit, .arrive cancel] ++ steps 0 3 "" ++ steps 1 4 "")
      (opened [landed signature1 [uuid1]])
      (fun mid => (stateOf mid.world uuid3 = some .cancelled &&
        mid.threads.any (answersCancel platform uuid3)) &&
        ((machine platform).run allowed (steps 0 9 "") mid).any fun last =>
          stateOf last.world uuid3 = some .paid) (by decide +kernel)
    simp only [Bool.and_eq_true, decide_eq_true_eq] at done
    obtain ⟨last, later, paid⟩ := run_meets (machine platform) allowed _ mid _ done.2
    exact ⟨mid, last, run.any, later.any, cancelAnswered_of_any done.1.2, done.1.1,
      by simpa using paid⟩

end Payknot
