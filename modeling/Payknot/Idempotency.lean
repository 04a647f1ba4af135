import Payknot.History
import Payknot.Mainnet

/-! Idempotency keys. Under one owner's key at most one session is ever stored, and
every answer that is given or recorded under it names that session; which request an
answer was recorded for is not part of the key. -/
namespace Payknot
open GoText Interleaving Machine

variable {p : Platform} {init cfg after : Service} {label : ServiceLabel}
variable {ownerEmail idemKey : String}

def SessionRow.keyed (row : SessionRow) (ownerEmail idemKey : String) : Bool :=
  row.ownerEmail = ownerEmail && row.idempotencyKey = idemKey

def Named (w : World) (ownerEmail idemKey id reference : String) : Prop :=
  ∃ row ∈ w.sessions, row.keyed ownerEmail idemKey = true ∧ row.id = id ∧ row.reference = reference

def Names (w : World) (ownerEmail idemKey : String) (content : Content) : Prop :=
  ∃ answer, content = .session answer ∧
    Named w ownerEmail idemKey answer.sessionID answer.reference

section Answers
variable {log : History}

/-- How a creation comes to answer 200: it has stored the session, or read the answer
on record. -/
def CreateAnswers (request : Request) (log : History) (answer : Answer) : Prop :=
  ∀ r content, request = .v1Create r → answer = .responded 200 content →
    SessionStored log (sessionOwner r.claims) (trimSpace r.idempotencyKey) content ∨
      log.Saw (.sql (.loadIdempotent (sessionOwner r.claims) (trimSpace r.idempotencyKey)
        createEndpoint)) (.ok (some content))

theorem session_answers (r : V1CreateRequest) (event : EventRow) (walletAddress paymentMethod : String)
    (data : Option Object) :
    (v1CreatePaymentSession.session p event (sessionOwner r.claims) (trimSpace r.idempotencyKey)
      walletAddress paymentMethod data).Along (fun _ _ => True) (CreateAnswers (.v1Create r)) log := by
  unfold v1CreatePaymentSession.session
  simp only [along_newUUID, along_timeNow, along_redis, true_and]
  intro id reference now cached
  cases cached with
  | error fault => simp [httpError, CreateAnswers]
  | ok _ =>
      simp only [along_redis, along_sql, true_and]
      intro expired inserted
      cases inserted with
      | error fault => simp [httpError, CreateAnswers]
      | ok _ =>
          refine (Program.along_grows _ _).sequence fun first _ grown _ => ?_
          refine (Program.along_grows _ _).sequence fun second _ more _ => ?_
          simp only [Program.along_pure]
          rintro _ content ⟨⟩ ⟨⟩
          exact .inl ⟨_, _, (grown.trans more).subset List.mem_cons_self, rfl, rfl, rfl, rfl, rfl⟩

theorem create_answers (r : V1CreateRequest) :
    (v1CreatePaymentSession p r).Along (fun _ _ => True) (CreateAnswers (.v1Create r)) [] := by
  unfold v1CreatePaymentSession
  split
  · simp [httpError, CreateAnswers]
  · split
    · next req _ =>
      dsimp only
      refine (replayed_saw _ _ _).sequence fun first response _ saw => ?_
      cases response with
      | some content =>
          simp only [Program.along_pure]
          rintro _ _ ⟨⟩ ⟨⟩
          exact .inr (saw content rfl)
      | none =>
          refine (Program.along_grows _ _).sequence fun second selected _ _ => ?_
          rcases selected with fault | (_ | event)
          · simp [httpError, CreateAnswers]
          · simp [httpError, CreateAnswers]
          · simp only [along_timeNow, true_and]
            intro now
            split
            · simp [httpError, CreateAnswers]
            · split
              · simp [httpError, CreateAnswers]
              · refine (Program.along_grows _ _).sequence fun third available _ _ => ?_
                cases available with
                | error text => simp [httpError, CreateAnswers]
                | ok _ =>
                    dsimp only
                    split
                    · simp [httpError, CreateAnswers]
                    · split
                      · simp [httpError, CreateAnswers]
                      · split
                        · simp [httpError, CreateAnswers]
                        · split
                          · simp [httpError, CreateAnswers]
                          · exact session_answers _ _ _ _ _
    · simp [httpError, CreateAnswers]

theorem answers_handler (request : Request) :
    (handler p request).Along (fun _ _ => True) (CreateAnswers request) [] := by
  cases request with
  | v1Create r => exact create_answers r
  | _ => exact (Program.along_grows _ _).mono (fun _ _ _ => trivial) (by simp [CreateAnswers])

end Answers

section Keyed

/-- What one request has learned about the key: the session it stored or was answered. -/
def Backed (p : Platform) (w : World) (ownerEmail idemKey : String) : Entry Reply → Prop
  | ⟨.newUUID, uuid⟩ => p.uuidText uuid = some uuid
  | ⟨.sql (.insertSession session), .ok _⟩ => session.ownerEmail = ownerEmail →
      session.idempotencyKey = idemKey → Named w ownerEmail idemKey session.id session.reference
  | ⟨.sql (.loadIdempotent owner key endpoint), .ok (some content)⟩ => owner = ownerEmail →
      key = idemKey → endpoint = createEndpoint → Names w ownerEmail idemKey content
  | _ => True

def keyedRows (w : World) (ownerEmail idemKey : String) : List SessionRow :=
  w.sessions.filter (·.keyed ownerEmail idemKey)

/-- The invariant: one session under the key, which every record and every request
that knows one agrees on. -/
structure KeyedOnce (p : Platform) (ownerEmail idemKey : String) (cfg : Service) : Prop where
  warranted : Warranted p cfg
  answers : Disciplined (fun _ _ _ => True) CreateAnswers cfg
  served : Served Request.keepsEvents cfg
  single : (keyedRows cfg.world ownerEmail idemKey).length ≤ 1
  backed : Seen (Backed p cfg.world ownerEmail idemKey) cfg
  recorded : ∀ record ∈ cfg.world.records, record.ownerEmail = ownerEmail → record.idemKey = idemKey →
    record.endpoint = createEndpoint → Names cfg.world ownerEmail idemKey record.response

theorem keyed_iff {row : SessionRow} : row.keyed ownerEmail idemKey = true ↔
    row.ownerEmail = ownerEmail ∧ row.idempotencyKey = idemKey := by
  simp [SessionRow.keyed]

theorem KeepsIdentity.keyed {set : SessionRow → SessionRow} (keeps : KeepsIdentity set)
    (row : SessionRow) : (set row).keyed ownerEmail idemKey = row.keyed ownerEmail idemKey := by
  simp [SessionRow.keyed, keeps.ownerEmail, keeps.idempotencyKey]

-- One step's effect on the sessions of the key.
theorem keyed_step (warranted : Warranted p cfg) (served : Served Request.keepsEvents cfg)
    (stepped : (machine p).next cfg label = some after) :
    (∃ set, KeepsIdentity set ∧ after.world.sessions = cfg.world.sessions.map set) ∨
    (∃ row : SessionRow, (∀ old ∈ cfg.world.sessions, ¬ (old.ownerEmail = row.ownerEmail ∧
      old.idempotencyKey = row.idempotencyKey)) ∧
      after.world.sessions = cfg.world.sessions ++ [row]) := by
  have untouched (same : after.world.sessions = cfg.world.sessions) :
      ∃ set, KeepsIdentity set ∧ after.world.sessions = cfg.world.sessions.map set :=
    ⟨id, ⟨fun _ => rfl, fun _ => rfl, fun _ => rfl, fun _ => rfl⟩, by simpa using same⟩
  rcases next_cases stepped with ⟨request, rfl, rfl⟩ | ⟨event, world, rfl, occurred, rfl⟩ |
    ⟨index, choice, thread, op, rest, reply, world, rfl, at_index, program, executed, same⟩
  · exact .inl (untouched rfl)
  · exact .inl (untouched (occur_frame .sessions occurred (by decide)))
  · have present := List.mem_of_getElem? at_index
    have no_delete (id : Int64) (owner : String) : op ≠ .sql (.deleteEvent id owner) := by
      rintro rfl
      exact no_deleteEvent warranted served present ⟨rest, program⟩
    rw [same]
    rcases exec_identities executed no_delete with kept | ⟨session, id, reference, data, _, _, _,
      fresh, added⟩
    · exact .inl kept
    · exact .inr ⟨_, fun old member => (fresh old member).2.2, added⟩

theorem Named.next (warranted : Warranted p cfg) (served : Served Request.keepsEvents cfg)
    (stepped : (machine p).next cfg label = some after) {id reference : String}
    (named : Named cfg.world ownerEmail idemKey id reference) :
    Named after.world ownerEmail idemKey id reference := by
  obtain ⟨row, member, keyed, same_id, same_reference⟩ := named
  rcases keyed_step warranted served stepped with ⟨set, keeps, updated⟩ | ⟨new, _, added⟩
  · refine ⟨set row, ?_, ?_, ?_, ?_⟩
    · rw [updated]
      exact List.mem_map_of_mem member
    · rw [keeps.keyed]
      exact keyed
    · rw [keeps.id, same_id]
    · rw [keeps.reference, same_reference]
  · refine ⟨row, ?_, keyed, same_id, same_reference⟩
    rw [added]
    exact List.mem_append_left _ member

theorem Names.next (warranted : Warranted p cfg) (served : Served Request.keepsEvents cfg)
    (stepped : (machine p).next cfg label = some after) {content : Content}
    (names : Names cfg.world ownerEmail idemKey content) : Names after.world ownerEmail idemKey content := by
  obtain ⟨answer, same, named⟩ := names
  exact ⟨answer, same, named.next warranted served stepped⟩

theorem single_next (warranted : Warranted p cfg) (served : Served Request.keepsEvents cfg)
    (stepped : (machine p).next cfg label = some after)
    (single : (keyedRows cfg.world ownerEmail idemKey).length ≤ 1) :
    (keyedRows after.world ownerEmail idemKey).length ≤ 1 := by
  unfold keyedRows at single ⊢
  rcases keyed_step warranted served stepped with ⟨set, keeps, updated⟩ | ⟨new, fresh, added⟩
  · have same : (fun row : SessionRow => row.keyed ownerEmail idemKey) ∘ set =
        fun row => row.keyed ownerEmail idemKey := by
      funext row
      exact keeps.keyed row
    rw [updated, List.filter_map, List.length_map, same]
    exact single
  · rw [added, List.filter_append]
    by_cases keyed : new.keyed ownerEmail idemKey = true
    · -- The index has let the row in, so there was none under the key.
      have none_before : cfg.world.sessions.filter (·.keyed ownerEmail idemKey) = [] := by
        rw [List.filter_eq_nil_iff]
        intro old member also
        obtain ⟨owner, key⟩ := keyed_iff.mp keyed
        obtain ⟨owner', key'⟩ := keyed_iff.mp also
        exact fresh old member ⟨owner'.trans owner.symm, key'.trans key.symm⟩
      rw [none_before, List.nil_append]
      exact List.length_filter_le _ [new]
    · simpa [keyed] using single

theorem Backed.next (warranted : Warranted p cfg) (served : Served Request.keepsEvents cfg)
    (stepped : (machine p).next cfg label = some after) {entry : Entry Reply}
    (backed : Backed p cfg.world ownerEmail idemKey entry) :
    Backed p after.world ownerEmail idemKey entry := by
  unfold Backed at backed ⊢
  split
  · exact backed
  · exact fun owner key => (backed owner key).next warranted served stepped
  · exact fun owner key endpoint => (backed owner key endpoint).next warranted served stepped
  · trivial

theorem KeyedOnce.backed_next (held : KeyedOnce p ownerEmail idemKey cfg)
    (stepped : (machine p).next cfg label = some after) :
    Seen (Backed p after.world ownerEmail idemKey) after := by
  refine seen_next held.backed stepped
    (fun _ backed => backed.next held.warranted held.served stepped) ?_
  intro thread present choice op reply suspended executed
  unfold Backed
  split
  · next uuid heard =>
    cases heard
    exact (exec_newUUID executed).2.1
  · next session _ heard =>
    cases heard
    intro owner key
    rcases exec_sql executed with ⟨_, wrong, _⟩ | ⟨value, same, ran⟩
    · cases wrong
    · obtain ⟨id, reference, data, cast, castRef, _, _, stored⟩ := runInsertSession_ok ran
      -- Both identifiers were drawn, and are kept as drawn.
      obtain ⟨_, _, _, drew, _, _, _, drew_id, _⟩ := held.warranted.issues present suspended
      rw [held.backed thread present _ drew_id, Option.some.injEq] at cast
      rw [held.backed thread present _ drew, Option.some.injEq] at castRef
      refine ⟨session.row id reference data, ?_, keyed_iff.mpr ⟨owner, key⟩, cast.symm, castRef.symm⟩
      rw [stored]
      exact List.mem_append_right _ List.mem_cons_self
  · next owner key endpoint content heard =>
    cases heard
    rintro rfl rfl rfl
    rcases exec_sql executed with ⟨_, wrong, _⟩ | ⟨value, same, ran⟩
    · cases wrong
    · cases same
      simp only [Sql.run, Except.ok.injEq, Prod.mk.injEq, Option.map_eq_some_iff] at ran
      obtain ⟨⟨record, found, rfl⟩, unchanged⟩ := ran
      have chosen := List.find?_some found
      simp only [Bool.and_eq_true, decide_eq_true_eq] at chosen
      rw [← unchanged]
      exact held.recorded record (List.mem_of_find?_eq_some found) chosen.1.1 chosen.1.2 chosen.2
  · trivial

theorem KeyedOnce.recorded_next (held : KeyedOnce p ownerEmail idemKey cfg)
    (stepped : (machine p).next cfg label = some after) :
    ∀ record ∈ after.world.records, record.ownerEmail = ownerEmail → record.idemKey = idemKey →
      record.endpoint = createEndpoint → Names after.world ownerEmail idemKey record.response := by
  intro record member owner key endpoint
  have old (among : record ∈ cfg.world.records) : Names after.world ownerEmail idemKey record.response :=
    (held.recorded record among owner key endpoint).next held.warranted held.served stepped
  rcases next_cases stepped with ⟨request, rfl, rfl⟩ | ⟨event, world, rfl, occurred, rfl⟩ |
    ⟨index, choice, thread, op, rest, reply, world, rfl, at_index, program, executed, same⟩
  · exact old member
  · have unchanged := occur_frame .records occurred (by decide)
    rw [unchanged] at member
    exact old member
  · rw [same] at member
    rcases exec_records executed with unchanged | ⟨new, entry, saved⟩
    · rw [unchanged] at member
      exact old member
    · cases entry
      rw [saved] at member
      rcases mem_upsertRecord member with among | rfl
      · exact old among
      · -- Only a creation records under this endpoint, and it has stored its session.
        have present := List.mem_of_getElem? at_index
        obtain ⟨keyed, stored⟩ := held.warranted.issues present ⟨rest, program⟩
        have creates := keyed.endpoint
        rw [endpoint] at creates
        cases request : thread.request with
        | v1Create r =>
            obtain ⟨session, answer, saw, same_owner, same_key, content, same_id, same_reference⟩ :=
              stored r request
            have named := held.backed thread present _ saw (same_owner.trans owner) (same_key.trans key)
            rw [← same_id, ← same_reference] at named
            exact Names.next held.warranted held.served stepped ⟨answer, content, named⟩
        | v1SubmitSignature r => simp [request, Request.endpoint, createEndpoint, submitEndpoint] at creates
        | v1Cancel r => simp [request, Request.endpoint, createEndpoint, cancelEndpoint] at creates
        | _ => simp [request, Request.endpoint] at creates

theorem keyedOnce_next (held : KeyedOnce p ownerEmail idemKey cfg)
    (keeps : offers Request.keepsEvents cfg label = true)
    (stepped : (machine p).next cfg label = some after) : KeyedOnce p ownerEmail idemKey after where
  warranted := warranted_next held.warranted stepped
  answers := disciplined_next answers_handler held.answers stepped
  served := served_next held.served keeps stepped
  single := single_next held.warranted held.served stepped held.single
  backed := held.backed_next stepped
  recorded := held.recorded_next stepped

/-- A creation for this owner under this key has been answered 200 with this content. -/
def CreationAnswered (cfg : Service) (ownerEmail idemKey : String) (content : Content) : Prop :=
  ∃ thread ∈ cfg.threads, ∃ r, thread.request = .v1Create r ∧ sessionOwner r.claims = ownerEmail ∧
    trimSpace r.idempotencyKey = idemKey ∧ thread.program = .ret (.responded 200 content)

theorem KeyedOnce.answered (held : KeyedOnce p ownerEmail idemKey cfg) {content : Content}
    (answered : CreationAnswered cfg ownerEmail idemKey content) :
    Names cfg.world ownerEmail idemKey content := by
  obtain ⟨thread, member, r, request, rfl, rfl, program⟩ := answered
  rcases held.answers.ends member program r content request rfl with
    ⟨session, answer, saw, owner, key, same, same_id, same_reference⟩ | saw
  · have named := held.backed thread member _ saw owner key
    rw [← same_id, ← same_reference] at named
    exact ⟨answer, same, named⟩
  · exact held.backed thread member _ saw rfl rfl rfl

/-- Between `mid` and `last` the key stands for one session: no other row is stored
under it, and every 200 carries that session's identifiers. -/
def OneSession (mid last : Service) (ownerEmail idemKey : String) : Prop :=
  ∃ id reference, (∀ row ∈ mid.world.sessions ++ last.world.sessions,
      row.keyed ownerEmail idemKey = true → row.id = id ∧ row.reference = reference) ∧
    (keyedRows last.world ownerEmail idemKey).length ≤ 1 ∧
    ∀ content, CreationAnswered last ownerEmail idemKey content → ∃ answer,
      content = .session answer ∧ answer.sessionID = id ∧ answer.reference = reference

/-- Creating sessions under a key is idempotent: for any interleaving with any other
requests, whatever fails, as long as no event is deleted. -/
theorem keyed_creation_idempotent (start : init.threads = [])
    (no_session : keyedRows init.world ownerEmail idemKey = [])
    (no_record : ∀ record ∈ init.world.records, ¬ (record.ownerEmail = ownerEmail ∧
      record.idemKey = idemKey ∧ record.endpoint = createEndpoint)) {mid last : Service}
    (before : (machine p).Reaches (fun cfg label => offers Request.keepsEvents cfg label = true) init mid)
    (since : (machine p).Reaches (fun cfg label => offers Request.keepsEvents cfg label = true) mid last) :
    OneSession mid last ownerEmail idemKey := by
  have begun : KeyedOnce p ownerEmail idemKey init := by
    constructor
    · exact warranted_start start
    · simp [Disciplined, start]
    · simp [Served, start]
    · simp [no_session]
    · simp [Seen, start]
    · exact fun record member owner key endpoint => absurd ⟨owner, key, endpoint⟩ (no_record record member)
  have middle := before.invariant _ begun fun _ _ _ held keeps stepped =>
    keyedOnce_next held keeps stepped
  have ended := since.invariant
    (fun cfg => KeyedOnce p ownerEmail idemKey cfg ∧ ∀ id reference,
      Named mid.world ownerEmail idemKey id reference → Named cfg.world ownerEmail idemKey id reference)
    ⟨middle, fun _ _ named => named⟩ fun _ _ _ held keeps stepped =>
      ⟨keyedOnce_next held.1 keeps stepped, fun id reference named =>
        (held.2 id reference named).next held.1.warranted held.1.served stepped⟩
  obtain ⟨held, kept⟩ := ended
  -- Every session named under the key is the same one.
  have named_unique {id reference : String} (named : Named last.world ownerEmail idemKey id reference)
      {row : SessionRow} (rows : keyedRows last.world ownerEmail idemKey = [row]) :
      id = row.id ∧ reference = row.reference := by
    obtain ⟨other, member, keyed, rfl, rfl⟩ := named
    have among : other ∈ keyedRows last.world ownerEmail idemKey := List.mem_filter.mpr ⟨member, keyed⟩
    rw [rows, List.mem_singleton] at among
    exact ⟨by rw [among], by rw [among]⟩
  have named_rows {row : SessionRow} (member : row ∈ mid.world.sessions ++ last.world.sessions)
      (keyed : row.keyed ownerEmail idemKey = true) :
      Named last.world ownerEmail idemKey row.id row.reference := by
    rcases List.mem_append.mp member with earlier | later
    · exact kept _ _ ⟨row, earlier, keyed, rfl, rfl⟩
    · exact ⟨row, later, keyed, rfl, rfl⟩
  have single := held.single
  cases rows : keyedRows last.world ownerEmail idemKey with
  | nil =>
      have nothing {id reference : String} (named : Named last.world ownerEmail idemKey id reference) :
          False := by
        obtain ⟨row, member, keyed, _⟩ := named
        have among : row ∈ keyedRows last.world ownerEmail idemKey := List.mem_filter.mpr ⟨member, keyed⟩
        rw [rows] at among
        cases among
      refine ⟨"", "", fun row member keyed => (nothing (named_rows member keyed)).elim, single, ?_⟩
      intro content answered
      obtain ⟨_, _, named⟩ := held.answered answered
      exact (nothing named).elim
  | cons row rest =>
      rw [rows] at single
      have rest_empty : rest = [] := by simpa using single
      subst rest_empty
      refine ⟨row.id, row.reference, fun other member keyed =>
        named_unique (named_rows member keyed) rows, held.single, ?_⟩
      intro content answered
      obtain ⟨answer, same, named⟩ := held.answered answered
      exact ⟨answer, same, named_unique named rows⟩

/-- Some creation for this owner under this key has been answered 200. -/
def answersCreation (ownerEmail idemKey : String) : ServiceThread → Bool
  | ⟨.v1Create r, _, .ret (.responded 200 _)⟩ =>
      sessionOwner r.claims = ownerEmail && trimSpace r.idempotencyKey = idemKey
  | _ => false

theorem creationAnswered_of_any
    (answers : cfg.threads.any (answersCreation ownerEmail idemKey) = true) :
    ∃ content, CreationAnswered cfg ownerEmail idemKey content := by
  obtain ⟨thread, member, answers⟩ := List.any_eq_true.mp answers
  unfold answersCreation at answers
  split at answers
  · simp only [Bool.and_eq_true, decide_eq_true_eq] at answers
    exact ⟨_, _, member, _, rfl, answers.1, answers.2, rfl⟩
  · cases answers

open Mainnet in
/-- A creation and its retry: the retry is answered from the record. -/
theorem keyed_creation_idempotent_meetup :
    ∃ mid last : Service, (keyedRows mid.world "public_checkout" "retry-1").length = 1 ∧
      mid.threads.length < last.threads.length ∧
      (∃ content, CreationAnswered last "public_checkout" "retry-1" content) ∧
      OneSession mid last "public_checkout" "retry-1" := by
  let allowed (cfg : Service) (label : ServiceLabel) := offers Request.keepsEvents cfg label
  obtain ⟨mid, before, done⟩ := run_meets (machine platform) allowed
    (.arrive (create "retry-1") :: steps 0 5 uuid3 ++ steps 0 6 uuid1) (opening [])
    (fun mid => (keyedRows mid.world "public_checkout" "retry-1").length = 1 &&
      ((machine platform).run allowed (.arrive (create "retry-1") :: steps 1 1 "") mid).any fun last =>
        mid.threads.length < last.threads.length &&
          last.threads.any (answersCreation "public_checkout" "retry-1")) (by decide +kernel)
  simp only [Bool.and_eq_true, decide_eq_true_eq] at done
  obtain ⟨last, since, more⟩ := run_meets (machine platform) allowed _ mid _ done.2
  simp only [Bool.and_eq_true, decide_eq_true_eq] at more
  exact ⟨mid, last, done.1, more.1, creationAnswered_of_any more.2,
    keyed_creation_idempotent rfl rfl (by simp [opening]) before since⟩

end Keyed

section Replays

/-- What a creation asks for: an event by id or slug, for a participant, a wallet and a
method. -/
def asked (req : V1CreatePaymentSessionRequest) : (Int64 ⊕ String) × Option Object × String × String :=
  (if req.eventID > 0 then .inl req.eventID else .inr (trimSpace req.slug), req.participantData,
    trimSpace req.walletAddress, trimSpace req.paymentMethod)

def SameOperation (p : Platform) : Request → Request → Prop
  | .v1Create r, .v1Create other => r.body.map asked = other.body.map asked
  | .v1SubmitSignature r, .v1SubmitSignature other =>
      p.uuidText (sessionID r.path "/submit-signature") =
        p.uuidText (sessionID other.path "/submit-signature")
  | .v1Cancel r, .v1Cancel other =>
      p.uuidText (sessionID r.path "/cancel") = p.uuidText (sessionID other.path "/cancel")
  | _, _ => False

/-- No request comes in under a key that another one has used for something else. -/
def KeysApart (p : Platform) (cfg : Service) (label : ServiceLabel) : Prop :=
  ∀ request, label = .arrive request → request.idemKey ≠ "" → ∀ thread ∈ cfg.threads,
    thread.request.endpoint = request.endpoint → thread.request.idemKey = request.idemKey →
    SameOperation p thread.request request

/-- The request is about to look its key up, and the table has this answer for it. -/
def Replays (cfg : Service) (thread : ServiceThread) (record : IdempotencyRow) : Prop :=
  ∃ ownerEmail idemKey endpoint, thread.Issues (.sql (.loadIdempotent ownerEmail idemKey endpoint)) ∧
    (cfg.world.records.find? fun row => row.ownerEmail = ownerEmail && row.idemKey = idemKey &&
      row.endpoint = endpoint) = some record

def Recorded (thread : ServiceThread) (record : IdempotencyRow) : Prop :=
  thread.log.Saw (.sql (.saveIdempotent record)) (.ok ()) ∧
    KeyedBy thread.request record.ownerEmail record.idemKey record.endpoint

/-- The invariant: every answer on record is some request's, and requests of one
endpoint and key ask for the same thing. -/
structure KeysMatch (p : Platform) (cfg : Service) : Prop where
  warranted : Warranted p cfg
  recorded : ∀ record ∈ cfg.world.records, ∃ producer ∈ cfg.threads, Recorded producer record
  alike : ∀ first ∈ cfg.threads, ∀ second ∈ cfg.threads, first.request.idemKey ≠ "" →
    first.request.endpoint = second.request.endpoint →
    first.request.idemKey = second.request.idemKey → SameOperation p first.request second.request

theorem SameOperation.refl {request : Request} (keyed : request.idemKey ≠ "") :
    SameOperation p request request := by
  cases request <;> first | exact Eq.refl _ | exact absurd rfl keyed

theorem SameOperation.symm {first second : Request} (same : SameOperation p first second) :
    SameOperation p second first := by
  cases first <;> cases second <;> first | exact same.elim | exact Eq.symm same

theorem KeysMatch.recorded_next (held : KeysMatch p cfg)
    (stepped : (machine p).next cfg label = some after) :
    ∀ record ∈ after.world.records, ∃ producer ∈ after.threads, Recorded producer record := by
  intro record member
  have old (among : record ∈ cfg.world.records) :
      ∃ producer ∈ after.threads, Recorded producer record := by
    obtain ⟨producer, present, saved, keyed⟩ := held.recorded record among
    obtain ⟨index, at_index⟩ := List.mem_iff_getElem?.mp present
    obtain ⟨current, found, same, grown⟩ := thread_kept stepped at_index
    rw [← same] at keyed
    exact ⟨current, List.mem_of_getElem? found, saved.mono grown, keyed⟩
  rcases next_cases stepped with ⟨request, rfl, rfl⟩ | ⟨event, world, rfl, occurred, rfl⟩ |
    ⟨index, choice, thread, op, rest, reply, world, rfl, at_index, program, executed, same⟩
  · exact old member
  · have unchanged := occur_frame .records occurred (by decide)
    rw [unchanged] at member
    exact old member
  · rw [same] at member
    rcases exec_records executed with unchanged | ⟨new, entry, saved⟩
    · rw [unchanged] at member
      exact old member
    · cases entry
      rw [saved] at member
      rcases mem_upsertRecord member with among | rfl
      · exact old among
      · have keyed := (held.warranted.issues (List.mem_of_getElem? at_index) ⟨rest, program⟩).1
        have inside := (List.getElem?_eq_some_iff.mp at_index).1
        refine ⟨thread.resumed _ (Except.ok ()) rest, ?_, ?_, keyed⟩
        · rw [same]
          exact List.mem_of_getElem? (List.getElem?_set_self inside)
        · exact List.mem_cons_self

theorem KeysMatch.alike_next (held : KeysMatch p cfg) (apart : KeysApart p cfg label)
    (stepped : (machine p).next cfg label = some after) :
    ∀ first ∈ after.threads, ∀ second ∈ after.threads, first.request.idemKey ≠ "" →
      first.request.endpoint = second.request.endpoint →
      first.request.idemKey = second.request.idemKey →
      SameOperation p first.request second.request := by
  -- A request was there before, or has just arrived.
  have origin {current : ServiceThread} (member : current ∈ after.threads) :
      (∃ old ∈ cfg.threads, old.request = current.request) ∨ label = .arrive current.request := by
    obtain ⟨index, found⟩ := List.mem_iff_getElem?.mp member
    rcases thread_after stepped found with old | ⟨request, rfl, rfl, _⟩ |
      ⟨_, thread, _, _, _, _, at_index, _, _, rfl⟩
    · exact .inl ⟨current, List.mem_of_getElem? old, rfl⟩
    · exact .inr rfl
    · exact .inl ⟨thread, List.mem_of_getElem? at_index, rfl⟩
  intro first member second member' given endpoint key
  rcases origin member with ⟨old, present, same⟩ | arrival
  · rcases origin member' with ⟨old', present', same'⟩ | arrival'
    · rw [← same, ← same'] at endpoint key ⊢
      rw [← same] at given
      exact held.alike old present old' present' given endpoint key
    · rw [← same] at endpoint key given ⊢
      exact apart _ arrival' (key ▸ given) old present endpoint key
  · rcases origin member' with ⟨old', present', same'⟩ | arrival'
    · rw [← same'] at endpoint key ⊢
      exact (apart _ arrival given old' present' endpoint.symm key.symm).symm
    · rw [arrival, Label.arrive.injEq] at arrival'
      rw [← arrival']
      exact .refl given

theorem keysMatch_next (held : KeysMatch p cfg) (apart : KeysApart p cfg label)
    (stepped : (machine p).next cfg label = some after) : KeysMatch p after where
  warranted := warranted_next held.warranted stepped
  recorded := held.recorded_next stepped
  alike := held.alike_next apart stepped

/-- As long as nobody reuses a key for something else, every replayed answer was recorded
by an earlier request that asked the same endpoint for the same thing. -/
theorem replays_match (start : init.threads = []) (no_records : init.world.records = [])
    (run : (machine p).Reaches (KeysApart p) init cfg) {thread : ServiceThread}
    (member : thread ∈ cfg.threads) {record : IdempotencyRow} (replays : Replays cfg thread record) :
    ∃ producer ∈ cfg.threads, producer.log.Saw (.sql (.saveIdempotent record)) (.ok ()) ∧
      producer.request.endpoint = thread.request.endpoint ∧
      SameOperation p producer.request thread.request := by
  have begun : KeysMatch p init := by
    constructor
    · exact warranted_start start
    · simp [no_records]
    · simp [start]
  have held := run.invariant _ begun fun _ _ _ held apart stepped => keysMatch_next held apart stepped
  obtain ⟨ownerEmail, idemKey, endpoint, suspended, found⟩ := replays
  have asks := held.warranted.issues member suspended
  obtain ⟨producer, present, saved, keyed⟩ :=
    held.recorded record (List.mem_of_find?_eq_some found)
  have chosen := List.find?_some found
  simp only [Bool.and_eq_true, decide_eq_true_eq] at chosen
  obtain ⟨⟨_, same_key⟩, same_endpoint⟩ := chosen
  have endpoints : producer.request.endpoint = thread.request.endpoint := by
    rw [keyed.endpoint, asks.endpoint, same_endpoint]
  have keys : producer.request.idemKey = thread.request.idemKey := by
    rw [keyed.key, asks.key, same_key]
  refine ⟨producer, present, saved, endpoints, ?_⟩
  apply held.alike producer present thread member _ endpoints keys
  rw [keyed.key]
  exact keyed.given

def replaying (w : World) (thread : ServiceThread) : Bool :=
  match thread.program with
  | .call (.sql (.loadIdempotent ownerEmail idemKey endpoint)) _ =>
      (w.records.find? fun row => row.ownerEmail = ownerEmail && row.idemKey = idemKey &&
        row.endpoint = endpoint).isSome
  | _ => false

theorem replays_of_replaying {thread : ServiceThread} (about : replaying cfg.world thread = true) :
    ∃ record, Replays cfg thread record := by
  unfold replaying at about
  split at about
  · next ownerEmail idemKey endpoint rest program =>
    obtain ⟨record, found⟩ := Option.isSome_iff_exists.mp about
    exact ⟨record, ownerEmail, idemKey, endpoint, ⟨rest, program⟩, found⟩
  · cases about

theorem keysApart_retries {request : Request} (start : init.threads = [])
    (run : (machine p).Reaches (fun _ label => ∀ other, label = .arrive other → other = request) init cfg) :
    (machine p).Reaches (KeysApart p) init cfg ∧ ∀ thread ∈ cfg.threads, thread.request = request := by
  induction run with
  | refl => exact ⟨.refl _, by simp [start]⟩
  | @tail last _ label _ only stepped ih =>
      have apart : KeysApart p last label := by
        intro other arrival keyed thread member _ _
        rw [only other arrival] at keyed ⊢
        rw [ih.2 thread member]
        exact .refl keyed
      refine ⟨ih.1.tail label apart stepped, ?_⟩
      intro current member
      obtain ⟨index, found⟩ := List.mem_iff_getElem?.mp member
      rcases thread_after stepped found with old | ⟨other, arrival, rfl, _⟩ |
        ⟨_, thread, _, _, _, _, at_index, _, _, rfl⟩
      · exact ih.2 current (List.mem_of_getElem? old)
      · exact only other arrival
      · exact ih.2 thread (List.mem_of_getElem? at_index)

open Mainnet in
/-- A creation and its retry, which finds the answer recorded by the first. -/
theorem replays_match_meetup :
    ∃ cfg : Service, ∃ thread ∈ cfg.threads, ∃ record, Replays cfg thread record ∧
      ∃ producer ∈ cfg.threads, producer.log.Saw (.sql (.saveIdempotent record)) (.ok ()) ∧
        producer.request.endpoint = thread.request.endpoint ∧
        SameOperation platform producer.request thread.request := by
  let labels : List ServiceLabel := .arrive (create "retry-1") :: steps 0 5 uuid3 ++ steps 0 6 uuid1 ++
    [.arrive (create "retry-1")]
  obtain ⟨cfg, taken, about⟩ := run_takes (machine platform) labels (opening [])
    (fun cfg => cfg.threads.any (replaying cfg.world)) (by decide +kernel)
  have retries : (machine platform).Reaches
      (fun _ label => ∀ other, label = .arrive other → other = create "retry-1") (opening []) cfg := by
    refine taken.mono fun _ label among => ?_
    rintro other rfl
    simpa [labels, steps] using among
  obtain ⟨thread, member, about⟩ := List.any_eq_true.mp about
  obtain ⟨record, replays⟩ := replays_of_replaying about
  exact ⟨cfg, thread, member, record, replays,
    replays_match rfl rfl (keysApart_retries rfl retries).1 member replays⟩

def forEmail (email : String) : Request → Bool
  | .v1Create ⟨_, _, _, some req⟩ =>
      match lookupMap req.participantData "email" with
      | .str value => value = email
      | _ => false
  | _ => false

theorem SameOperation.forEmail {first second : Request} (same : SameOperation p first second)
    {email : String} (meant : Payknot.forEmail email first = true) :
    Payknot.forEmail email second = true := by
  cases first with
  | v1Create r =>
      cases second with
      | v1Create other =>
          obtain ⟨_, _, _, body⟩ := r
          obtain ⟨_, _, _, body'⟩ := other
          cases body with
          | none => cases meant
          | some req =>
              cases body' with
              | none => cases same
              | some req' =>
                  have alike : asked req = asked req' := by simpa [SameOperation] using same
                  have data : req.participantData = req'.participantData :=
                    congrArg (fun whole => whole.2.1) alike
                  simp only [Payknot.forEmail] at meant ⊢
                  rw [← data]
                  exact meant
      | _ => exact same.elim
  | _ => cases meant

open Mainnet in
/-- Two anonymous participants use one key: the second is about to be answered with the
session of the first. -/
theorem replay_crosses_participants :
    ∃ cfg : Service, (machine platform).Reaches anyStep (opening []) cfg ∧
      ∃ thread ∈ cfg.threads, ∃ record, Replays cfg thread record ∧
      ∀ producer ∈ cfg.threads, producer.log.Saw (.sql (.saveIdempotent record)) (.ok ()) →
        ¬ SameOperation platform producer.request thread.request := by
  let other : Request :=
    .v1Create ⟨.post, none, "retry-1", some ⟨1, "", "wallet", payer, some [("email", .str "bob@example.com")]⟩⟩
  obtain ⟨cfg, taken, done⟩ := run_takes (machine platform)
    (.arrive (create "retry-1") :: steps 0 5 uuid3 ++ steps 0 6 uuid1 ++ [.arrive other]) (opening [])
    (fun cfg => (cfg.threads.any fun thread => replaying cfg.world thread &&
        forEmail "bob@example.com" thread.request) &&
      cfg.threads.all fun producer => producer.log.isEmpty ||
        !forEmail "bob@example.com" producer.request) (by decide +kernel)
  simp only [Bool.and_eq_true, List.any_eq_true, List.all_eq_true, Bool.or_eq_true,
    Bool.not_eq_true', List.isEmpty_iff] at done
  obtain ⟨⟨thread, member, about, meant⟩, others⟩ := done
  obtain ⟨record, replays⟩ := replays_of_replaying about
  refine ⟨cfg, taken.any, thread, member, record, replays, ?_⟩
  intro producer present saved same
  rcases others producer present with nothing | different
  · rw [nothing] at saved
    cases saved
  · have alike := same.symm.forEmail meant
    rw [different] at alike
    cases alike

end Replays

end Payknot
