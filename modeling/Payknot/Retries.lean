import Payknot.IntentPhases

/-! Settlements repeated under one idempotency key. The unique index keeps one row of the
key; what a repetition answers depends on what its lookup finds, and on the hourly count
that comes before the lookup. -/
namespace Payknot.AgentRuntime
open GoText Interleaving Machine

variable {e : Environment} {cfg after : Service} {label : ServiceLabel} {agentPubkey key : String}

def IntentRow.IsOf (row : IntentRow) (agentPubkey key : String) : Prop :=
  row.agentPubkey = agentPubkey ∧ row.idempotencyKey = some key

/-- A settlement request with the key that came as far as the agent's hourly count. -/
structure Retry (agentPubkey key : String) (thread : ServiceThread) : Prop where
  keyed : ∃ r, thread.request = .createCheckout r ∧ trimSpace r.idempotencyKey = key
  counted : ∃ count, thread.log.Saw (.sql (.countHour agentPubkey)) count

def Created (agentPubkey key : String) (thread : ServiceThread) : Prop :=
  ∃ intent, intent.agentPubkey = agentPubkey ∧ intent.idempotencyKey = some key ∧
    thread.log.Saw (.sql (.insertIntent intent)) (.ok ())

def Between (agentPubkey key : String) (thread : ServiceThread) : Prop :=
  LookedUp thread.log agentPubkey key ∧ thread.program.finished = false

def World.hourCount (w : World) (agentPubkey : String) : Nat :=
  (w.intents.filter fun row => row.agentPubkey = agentPubkey &&
    (row.createdAt > w.now - hour && row.counts)).length

/-- The key is looked up while no other request is between its lookup and its end; where
its row exists, the lookup does not fail and the row is confirmed, and the hourly limit
is not reached when the key comes again. -/
structure Orderly (agentPubkey key : String) (cfg : Service) (label : ServiceLabel) : Prop where
  lookup : ∀ index choice thread, label = .step index choice → cfg.threads[index]? = some thread →
    thread.Issues (.sql (.selectIntent agentPubkey key)) →
      Others cfg index (fun other => ¬ Between agentPubkey key other) ∧
      ∀ row ∈ cfg.world.intents, row.IsOf agentPubkey key → choice.fault = none ∧ row.status = .confirmed
  count : ∀ index choice thread r limit, label = .step index choice → cfg.threads[index]? = some thread →
    thread.request = .createCheckout r → trimSpace r.idempotencyKey = key →
    thread.Issues (.sql (.countHour agentPubkey)) → thread.log.Saw (.sql .selectHourlyLimit) limit →
      (∃ row ∈ cfg.world.intents, row.IsOf agentPubkey key) →
        (cfg.world.hourCount agentPubkey : Int) < scannedLimit limit

section Rows
variable {w w' : World} {choice : Choice}

/-- What becomes of a row: its status changes, and to confirmed only by a confirmation. -/
theorem row_after {entry : Entry Reply} (effect : Effect w entry w') {row : IntentRow} (member : row ∈ w.intents) :
    ∃ later ∈ w'.intents, later.id = row.id ∧ later.agentPubkey = row.agentPubkey ∧
      later.idempotencyKey = row.idempotencyKey ∧ (later.status = .confirmed → later = row ∨
        ∃ txSignature, entry = ⟨.sql (.confirmIntent row.id txSignature), .ok ()⟩ ∧
          later.txSignature = some txSignature) := by
  cases effect with
  | recorded => exact ⟨row, List.mem_append_left _ member, rfl, rfl, rfl, fun _ => .inl rfl⟩
  | confirmed id txSignature =>
      refine ⟨_, List.mem_map_of_mem member, ?_⟩
      by_cases named : row.id = id
      · rw [if_pos named, named]
        exact ⟨named, rfl, rfl, fun _ => .inr ⟨txSignature, rfl, rfl⟩⟩
      · rw [if_neg named]
        exact ⟨rfl, rfl, rfl, fun _ => .inl rfl⟩
  | failed id =>
      refine ⟨_, List.mem_map_of_mem member, ?_⟩
      by_cases named : row.id = id
      · rw [if_pos named]
        exact ⟨rfl, rfl, rfl, nofun⟩
      · rw [if_neg named]
        exact ⟨rfl, rfl, rfl, fun _ => .inl rfl⟩
  | unchanged | drawn | nonce | marked | session => exact ⟨row, member, rfl, rfl, rfl, fun _ => .inl rfl⟩

theorem scannedLimit_pos (limit : Except Fault (Option Int)) : 0 < scannedLimit limit := by
  unfold scannedLimit
  split
  · split <;> omega
  · decide

-- A lookup that does not fail finds the row of the key.
theorem lookup_finds {found : Except Fault (Option String)} (sound : choice.fault = none)
    (executed : exec choice (.sql (.selectIntent agentPubkey key)) w = some (found, w'))
    {row : IntentRow} (member : row ∈ w.intents) (is : row.IsOf agentPubkey key) (keyed : Keyed w.intents) :
    found = .ok (some (row.txSignature.getD "")) := by
  simp only [exec, sound, runSql, Option.some.injEq, Prod.mk.injEq] at executed
  rw [← executed.1]
  cases first : w.intents.find? fun row => row.agentPubkey = agentPubkey ∧ row.idempotencyKey = some key with
  | none =>
      have absent := List.find?_eq_none.mp first row member
      exact absurd is (by simpa [IntentRow.IsOf] using absent)
  | some other =>
      have is' : other.IsOf agentPubkey key := by simpa [IntentRow.IsOf] using List.find?_some first
      have same := keyed.keys other (List.mem_of_find?_eq_some first) row member (is'.1.trans is.1.symm)
        (is'.2.trans is.2.symm) (by simp [is'.2])
      rw [same]
      rfl

end Rows

section Invariant

/-- One request at a time is between its lookup and its end, and rows of the key that are
there then are its own; a confirmed row was confirmed by the request that recorded it. -/
structure Repeatable (e : Environment) (agentPubkey key : String) (cfg : Service) : Prop where
  phased : Phased e cfg
  alone : ∀ (i j : Nat) (first second : ServiceThread), cfg.threads[i]? = some first →
    cfg.threads[j]? = some second → Between agentPubkey key first → Between agentPubkey key second → i = j
  own : ∀ thread ∈ cfg.threads, Between agentPubkey key thread → ∀ row ∈ cfg.world.intents,
    row.IsOf agentPubkey key → thread.log.Saw .newUUID row.id
  outcome : ∀ thread ∈ cfg.threads, ∀ intent, thread.log.Saw (.sql (.insertIntent intent)) (.ok ()) →
    ∃ row ∈ cfg.world.intents, row.id = intent.id ∧ row.agentPubkey = intent.agentPubkey ∧
      row.idempotencyKey = intent.idempotencyKey ∧ (row.status = .confirmed → ∃ txSignature,
        thread.log.Saw (.sql (.confirmIntent intent.id txSignature)) (.ok ()) ∧
          row.txSignature = some txSignature)

theorem between_before (stepped : (machine e).next cfg label = some after) {index : Nat}
    {current : ServiceThread} (found : after.threads[index]? = some current)
    (between : Between agentPubkey key current) :
    (∃ thread, cfg.threads[index]? = some thread ∧ Between agentPubkey key thread ∧
      thread.log <:+ current.log) ∨
    ∃ choice thread reply, label = .step index choice ∧ cfg.threads[index]? = some thread ∧
      thread.Issues (.sql (.selectIntent agentPubkey key)) ∧
      exec choice (.sql (.selectIntent agentPubkey key)) cfg.world = some (reply, after.world) ∧
      ∀ txSig, reply ≠ .ok (some txSig) := by
  obtain ⟨⟨reply, saw, absent⟩, unfinished⟩ := between
  rcases thread_after stepped found with old | ⟨request, _, rfl, _⟩ |
    ⟨choice, thread, op, rest, answered, step, at_index, program, executed, rfl⟩
  · exact .inl ⟨current, old, ⟨⟨reply, saw, absent⟩, unfinished⟩, List.suffix_refl _⟩
  · cases saw
  · rcases List.mem_cons.mp saw with here | earlier
    · cases here
      exact .inr ⟨choice, thread, reply, step, at_index, ⟨rest, program⟩, executed, absent⟩
    · refine .inl ⟨thread, at_index, ⟨⟨reply, earlier, absent⟩, ?_⟩, List.suffix_cons _ _⟩
      rw [program]
      rfl

-- Who records an intent of the key is between its lookup and its end.
theorem Phased.recorder (phased : Phased e cfg) {thread : ServiceThread} (member : thread ∈ cfg.threads)
    {intent : NewIntent} (issues : thread.Issues (.sql (.insertIntent intent)))
    (with_key : intent.idempotencyKey = some key) : Between intent.agentPubkey key thread := by
  obtain ⟨r, _, _, _, of_key, looked⟩ := phased.inserts member issues
  rw [with_key] at of_key
  obtain ⟨rest, program⟩ := issues
  simp only [nullIfEmpty, trimSpace_trimSpace] at of_key
  split at of_key
  · cases of_key
  · next some_key =>
    cases of_key
    exact ⟨looked some_key, by rw [program]; rfl⟩

theorem Repeatable.alone_next (repeatable : Repeatable e agentPubkey key cfg)
    (orderly : Orderly agentPubkey key cfg label) (stepped : (machine e).next cfg label = some after)
    {i j : Nat} {first second : ServiceThread} (at_i : after.threads[i]? = some first)
    (at_j : after.threads[j]? = some second) (between : Between agentPubkey key first)
    (between' : Between agentPubkey key second) : i = j := by
  rcases between_before stepped at_i between with ⟨thread, old, held, _⟩ |
    ⟨choice, thread, _, step, at_first, issues, _, _⟩
  · rcases between_before stepped at_j between' with ⟨other, old', held', _⟩ |
      ⟨choice, other, _, step, at_second, issues, _, _⟩
    · exact repeatable.alone i j thread other old old' held held'
    · by_contra different
      exact (orderly.lookup j choice other step at_second issues).1 i thread different old held
  · rcases between_before stepped at_j between' with ⟨other, old', held', _⟩ | ⟨_, _, _, step', _⟩
    · by_contra different
      exact (orderly.lookup i choice thread step at_first issues).1 j other (Ne.symm different) old' held'
    · rw [step] at step'
      cases step'
      rfl

theorem Repeatable.own_next (repeatable : Repeatable e agentPubkey key cfg)
    (orderly : Orderly agentPubkey key cfg label) (stepped : (machine e).next cfg label = some after)
    {current : ServiceThread} (member : current ∈ after.threads) (between : Between agentPubkey key current)
    {row : IntentRow} (present : row ∈ after.world.intents) (is : row.IsOf agentPubkey key) :
    current.log.Saw .newUUID row.id := by
  obtain ⟨index, found⟩ := List.mem_iff_getElem?.mp member
  have phased := repeatable.phased
  rcases row_before stepped present with ⟨old, among, same⟩ |
    ⟨moved, choice, thread, intent, later, step, at_moved, issues, rfl, at_later, log⟩
  · have id := IntentRow.same_id same
    have is_old : old.IsOf agentPubkey key :=
      ⟨(IntentRow.same_agent same).symm.trans is.1, (IntentRow.same_key same).symm.trans is.2⟩
    rcases between_before stepped found between with ⟨thread, at_index, held, grown⟩ |
      ⟨choice, thread, reply, step, at_index, issues, executed, absent⟩
    · rw [id]
      exact (repeatable.own thread (List.mem_of_getElem? at_index) held old among is_old).mono grown
    · have sound := ((orderly.lookup index choice thread step at_index issues).2 old among is_old).1
      exact absurd (lookup_finds sound executed among is_old phased.settled.keyed) (absent _)
  -- The row has just been recorded, by the only request that may.
  · have recorder : Between agentPubkey key thread := by
      have held := phased.recorder (List.mem_of_getElem? at_moved) issues is.2
      rwa [show intent.agentPubkey = agentPubkey from is.1] at held
    have drew : thread.log.Saw .newUUID intent.id :=
      (phased.settled.disciplined.issues (List.mem_of_getElem? at_moved) issues).2.1
    rcases between_before stepped found between with ⟨other, at_index, held, grown⟩ |
      ⟨choice', other, _, step', at_index, issues', _, _⟩
    · cases repeatable.alone index moved other thread at_index at_moved held recorder
      cases at_index.symm.trans at_moved
      exact drew.mono grown
    · rw [step] at step'
      cases step'
      cases at_moved.symm.trans at_index
      obtain ⟨rest, program⟩ := issues
      obtain ⟨rest', program'⟩ := issues'
      cases program.symm.trans program'

theorem Repeatable.outcome_next (repeatable : Repeatable e agentPubkey key cfg)
    (stepped : (machine e).next cfg label = some after) {current : ServiceThread}
    (member : current ∈ after.threads) {intent : NewIntent}
    (saw : current.log.Saw (.sql (.insertIntent intent)) (.ok ())) :
    ∃ row ∈ after.world.intents, row.id = intent.id ∧ row.agentPubkey = intent.agentPubkey ∧
      row.idempotencyKey = intent.idempotencyKey ∧ (row.status = .confirmed → ∃ txSignature,
        current.log.Saw (.sql (.confirmIntent intent.id txSignature)) (.ok ()) ∧
          row.txSignature = some txSignature) := by
  obtain ⟨index, found⟩ := List.mem_iff_getElem?.mp member
  have phased := repeatable.phased
  rcases saw_after stepped found saw with ⟨thread, old, _, saw⟩ |
    ⟨choice, thread, rest, _, _, _, executed, _⟩
  · obtain ⟨row, among, id, agent, with_key, confirmed⟩ :=
      repeatable.outcome thread (List.mem_of_getElem? old) intent saw
    have grown : thread.log <:+ current.log := by
      obtain ⟨same, still, _, grown⟩ := thread_kept stepped old
      cases found.symm.trans still
      exact grown
    have kept {row : IntentRow} (confirmed : row.status = .confirmed → ∃ txSignature,
        thread.log.Saw (.sql (.confirmIntent intent.id txSignature)) (.ok ()) ∧
          row.txSignature = some txSignature) (is : row.status = .confirmed) : ∃ txSignature,
        current.log.Saw (.sql (.confirmIntent intent.id txSignature)) (.ok ()) ∧
          row.txSignature = some txSignature := by
      obtain ⟨txSignature, confirms, with_tx⟩ := confirmed is
      exact ⟨txSignature, confirms.mono grown, with_tx⟩
    rcases next_cases stepped with ⟨_, _, rfl⟩ | ⟨_, _, _, occurred, rfl⟩ |
      ⟨moved, choice, mover, op, rest, reply, world, step, at_moved, program, executed, rfl⟩
    · exact ⟨row, among, id, agent, with_key, kept confirmed⟩
    · cases occurred
      exact ⟨row, among, id, agent, with_key, kept confirmed⟩
    · obtain ⟨later, present, id', agent', key', changed⟩ := row_after (exec_effect executed) among
      refine ⟨later, present, id'.trans id, agent'.trans agent, key'.trans with_key, fun is => ?_⟩
      rcases changed is with rfl | ⟨txSignature, entry, with_tx⟩
      · exact kept confirmed is
      -- The row's id was drawn by the request that recorded it, so that request confirms it.
      · cases entry
        have mover_in := List.mem_of_getElem? at_moved
        obtain ⟨other, reply, of_id, inserts⟩ := phased.settled.disciplined.issues mover_in ⟨rest, program⟩
        have drew := (phased.inserted mover_in inserts).1
        have drew' := (phased.inserted (List.mem_of_getElem? old) saw).1
        rw [of_id, id] at drew
        cases phased.settled.apart moved index mover thread intent.id at_moved old drew drew'
        have inside := (List.getElem?_eq_some_iff.mp at_moved).1
        rw [List.getElem?_set_self inside, Option.some.injEq] at found
        refine ⟨txSignature, ?_, with_tx⟩
        rw [← found, ← id]
        exact List.mem_cons_self
  · rcases exec_sql executed with ⟨⟨_, failed⟩, _⟩ | ⟨_, _, _, ran⟩
    · cases failed
    · simp only [runSql] at ran
      repeat' split at ran
      · cases ran
      · cases ran
      · cases ran
      · obtain ⟨_, same⟩ := Prod.mk.inj (Except.ok.inj ran)
        rw [← same]
        exact ⟨_, List.mem_append_right _ List.mem_cons_self, rfl, rfl, rfl, fun is => IntentStatus.noConfusion is⟩

theorem Repeatable.next (repeatable : Repeatable e agentPubkey key cfg)
    (orderly : Orderly agentPubkey key cfg label) (stepped : (machine e).next cfg label = some after) :
    Repeatable e agentPubkey key after := by
  constructor
  · exact repeatable.phased.next stepped
  · exact fun i j first second => repeatable.alone_next orderly stepped
  · exact fun thread member between row present is => repeatable.own_next orderly stepped member between present is
  · exact fun thread member intent saw => repeatable.outcome_next stepped member saw

theorem Unserved.repeatable (unserved : Unserved cfg) : Repeatable e agentPubkey key cfg := by
  have nobody : ∀ thread, thread ∉ cfg.threads := by simp [unserved.threads]
  constructor
  · exact unserved.phased
  · exact fun i j thread _ at_i => absurd (List.mem_of_getElem? at_i) (nobody thread)
  · exact fun thread member => absurd member (nobody thread)
  · exact fun thread member => absurd member (nobody thread)

end Invariant

section Answers
variable {init last : Service}

/-- The request that recorded the intent and has ended: its confirmation is what it answered. -/
theorem Phased.answered (phased : Phased e cfg) {creator : ServiceThread} (member : creator ∈ cfg.threads)
    {r : CheckoutRequest} (request : creator.request = .createCheckout r) {id txSignature : String}
    {reply : Except Fault Unit} {answer : Answer}
    (confirms : creator.log.Saw (.sql (.confirmIntent id txSignature)) reply)
    (ended : creator.program = .ret answer) : answer = .settled txSignature (explorerFor txSignature) := by
  rcases phased.disciplined.ends member ended r request with untouched | ⟨agent, ending⟩
  · cases untouched _ confirms
  · have issued {op : Op} {reply : Reply op} {rest : Log Reply} (whole : creator.log = ⟨op, reply⟩ :: rest) :
        Phase e r rest op :=
      (phased.justified creator member op reply rest (whole ▸ List.suffix_refl _) r request).2
    generalize whole : creator.log = log at ending
    have among := whole ▸ confirms
    cases ending with
    | refused =>
        rcases List.mem_cons.mp among with here | earlier
        · cases here
        · cases (issued whole).1 _ earlier
    | found =>
        rcases List.mem_cons.mp among with here | earlier
        · cases here
        · exact absurd trivial ((issued whole).2.1 _ earlier)
    | confirmed =>
        have head : creator.log.Saw _ _ := whole ▸ List.mem_cons_self
        cases phased.confirms_once member request confirms head trivial trivial
        rfl
    | failed =>
        obtain ⟨earlier, _, warranted⟩ := phased.justified.saw member confirms
        have mock := (warranted r request).2.1
        rw [(issued whole).1] at mock
        cases mock

/-- Once the request that recorded the intent has been answered, a request with the key
that comes to its end repeats the answer. -/
theorem Repeatable.repeats (repeatable : Repeatable e agentPubkey key cfg)
    (orderly : Orderly agentPubkey key cfg label) (stepped : (machine e).next cfg label = some after)
    {i j : Nat} {creator retry current : ServiceThread} {answer answer' : Answer}
    (at_i : cfg.threads[i]? = some creator) (created : Created agentPubkey key creator)
    (answered : creator.program = .ret answer) (at_j : cfg.threads[j]? = some retry)
    (unfinished : retry.program.finished = false) (at_after : after.threads[j]? = some current)
    (is_retry : Retry agentPubkey key current) (ended : current.program = .ret answer') : answer' = answer := by
  have phased := repeatable.phased
  have phased' := phased.next stepped
  obtain ⟨intent, of_agent, of_key, recorded⟩ := created
  obtain ⟨_, rc, _, created_by, _⟩ := phased.inserted (List.mem_of_getElem? at_i) recorded
  obtain ⟨row, present, id, agent, with_key, outcome⟩ :=
    repeatable.outcome creator (List.mem_of_getElem? at_i) intent recorded
  have is : row.IsOf agentPubkey key := ⟨agent.trans of_agent, with_key.trans of_key⟩
  rcases thread_after stepped at_after with old | ⟨_, _, _, outside⟩ |
    ⟨choice, thread, op, rest, reply, step, at_index, program, executed, resumed⟩
  · cases at_j.symm.trans old
    rw [ended] at unfinished
    cases unfinished
  · rw [at_j] at outside
    cases outside
  · cases at_j.symm.trans at_index
    obtain ⟨⟨r, request, trimmed⟩, count, counted⟩ := is_retry
    have member := List.mem_of_getElem? at_j
    have request_before : retry.request = .createCheckout r := by
      rw [resumed] at request
      exact request
    have phase : Phase e r retry.log op :=
      (phased.disciplined.issues member ⟨rest, program⟩ r request_before).2
    have log : current.log = ⟨op, reply⟩ :: retry.log := by rw [resumed]; rfl
    rcases phased'.disciplined.ends (List.mem_of_getElem? at_after) ended r request with untouched | ⟨other, ending⟩
    · cases untouched _ counted
    · rw [trimmed] at ending
      rw [log] at ending counted
      -- The agent that was counted is the one the last statement names.
      have same_agent {agent : String} {earlier : Except Fault Nat}
          (saw : (⟨.sql (.countHour agent), earlier⟩ : Entry Reply) ∈ ⟨op, reply⟩ :: retry.log) :
          agent = agentPubkey := by
        rw [← log] at saw counted
        cases phased'.counts_once (List.mem_of_getElem? at_after) request saw counted trivial trivial
        rfl
      -- An insert of its own would make the row its own.
      have inserts_none {intent' : NewIntent} {inserted : Except Fault Unit}
          (saw : retry.log.Saw (.sql (.insertIntent intent')) inserted) : False := by
        obtain ⟨_, r', earlier, request', grown, ⟨_, count', _, counted', _⟩, _, _, looked⟩ :=
          phased.inserted member saw
        cases request_before.symm.trans request'
        have agent' := same_agent (List.mem_cons_of_mem _ (grown.subset counted'))
        have some_key : trimSpace r.idempotencyKey ≠ "" := by
          intro none
          rw [trimmed] at none
          have stored := (phased.inserted (List.mem_of_getElem? at_i) recorded).2
          obtain ⟨_, _, _, _, _, _, of_key', _⟩ := stored
          rw [of_key, none, nullIfEmpty] at of_key'
          split at of_key'
          · cases of_key'
          · next blank => exact blank (Option.some.inj of_key').symm
        have between : Between agentPubkey key retry := by
          refine ⟨?_, by rw [program]; rfl⟩
          rw [← trimmed, ← agent']
          exact (looked some_key).mono grown
        have drew := repeatable.own retry member between row present is
        have drew' := (phased.inserted (List.mem_of_getElem? at_i) recorded).1
        rw [id] at drew
        cases phased.settled.apart j i retry creator intent.id at_j at_i drew drew'
        cases at_i.symm.trans at_j
        rw [answered] at unfinished
        cases unfinished
      cases ending with
      | @refused limit _ _ _ read reached =>
          have named := same_agent List.mem_cons_self
          subst named
          have below := orderly.count j choice retry r _ step at_j request_before trimmed ⟨rest, program⟩ read
            ⟨row, present, is⟩
          rcases exec_sql executed with ⟨⟨fault, rfl⟩, _⟩ | ⟨value, rfl, _, ran⟩
          · have positive := scannedLimit_pos limit
            simp only [scannedCount] at reached
            omega
          · obtain ⟨same, _⟩ := Prod.mk.inj (Except.ok.inj ran)
            simp only [scannedCount, ← same] at reached
            unfold World.hourCount at below
            omega
      | found =>
          obtain ⟨⟨_, count', _, counted', _⟩, _, _, _⟩ := phase
          have named := same_agent (List.mem_cons_of_mem _ counted')
          subst named
          obtain ⟨_, free⟩ := orderly.lookup j choice retry step at_j ⟨rest, program⟩
          obtain ⟨sound, confirmed⟩ := free row present is
          have finds := lookup_finds sound executed present is phased.settled.keyed
          obtain ⟨txSignature, confirms, with_tx⟩ := outcome confirmed
          rw [phased.answered (List.mem_of_getElem? at_i) created_by confirms answered]
          rw [with_tx] at finds
          cases finds
          rfl
      | confirmed =>
          obtain ⟨_, _, intent', inserted, _, saw⟩ := phase
          exact (inserts_none saw).elim
      | failed =>
          obtain ⟨_, intent', inserted, _, saw⟩ := phase
          exact (inserts_none saw).elim

end Answers

/-- Any run: the agent has one row of the key. And in an orderly run, once the request
that recorded the intent has been answered, every later answer repeats that answer. -/
theorem retries_repeat_outcome {init : Service} (unserved : Unserved init) :
    (∀ last, (machine e).Reaches anyStep init last → ∀ row ∈ last.world.intents, ∀ row' ∈ last.world.intents,
      row.IsOf agentPubkey key → row'.IsOf agentPubkey key → row = row') ∧
    ∀ last, (machine e).Reaches (Orderly agentPubkey key) init last → ∀ label after,
      Orderly agentPubkey key last label → (machine e).next last label = some after →
      ∀ (i j : Nat) (creator retry current : ServiceThread) (answer answer' : Answer),
        last.threads[i]? = some creator → Created agentPubkey key creator → creator.program = .ret answer →
        last.threads[j]? = some retry → retry.program.finished = false →
        after.threads[j]? = some current → Retry agentPubkey key current → current.program = .ret answer' →
          answer' = answer := by
  constructor
  · intro last run row member row' member' is is'
    have settled : Settled e last :=
      run.invariant _ unserved.settled fun _ _ _ held _ stepped => settled_next held stepped
    exact settled.keyed.keys row member row' member' (is.1.trans is'.1.symm) (is.2.trans is'.2.symm)
      (by simp [is.2])
  · intro last run label after orderly stepped i j creator retry current answer answer' at_i created answered
      at_j unfinished at_after is_retry ended
    have repeatable : Repeatable e agentPubkey key last :=
      run.invariant _ unserved.repeatable fun _ _ _ held orderly stepped => held.next orderly stepped
    exact repeatable.repeats orderly stepped at_i created answered at_j unfinished at_after is_retry ended

section Meetup
open Agents

/-- The lookup is alone and sound, all rows are confirmed, and the limit is not reached. -/
def orderly (cfg : Service) (label : ServiceLabel) : Bool :=
  match label, performed cfg label with
  | .step index choice, some (.sql (.selectIntent _ _)) => choice.fault.isNone &&
      ((cfg.threads.zipIdx.all fun other => other.2 = index || other.1.program.finished) &&
        cfg.world.intents.all (·.status = .confirmed))
  | .step index _, some (.sql (.countHour agent)) => (cfg.threads[index]?).all fun thread =>
      thread.log.all fun
        | ⟨.sql .selectHourlyLimit, limit⟩ => (cfg.world.hourCount agent : Int) < scannedLimit limit
        | _ => true
  | _, _ => true

theorem orderly_free : FreeChecks orderly := by
  intro cfg index choice thread op at_index issues checks
  have performs : performed cfg (.step index choice : ServiceLabel) = some op :=
    Performs.performed ⟨⟨choice, rfl⟩, at_index, issues⟩
  simp only [orderly, performs]
  cases op with
  | sql statement => cases statement <;> first | rfl | cases checks
  | newUUID | randomNonce | now => rfl

theorem orderly_of (holds : orderly cfg label = true) : Orderly agentPubkey key cfg label := by
  constructor
  · rintro index choice thread rfl at_index issues
    have performs : performed cfg (.step index choice : ServiceLabel) = some _ :=
      Performs.performed ⟨⟨choice, rfl⟩, at_index, issues⟩
    simp only [orderly, performs, Bool.and_eq_true, Option.isNone_iff_eq_none, List.all_eq_true, decide_eq_true_eq] at holds
    obtain ⟨sound, others, confirmed⟩ := holds
    refine ⟨fun j other elsewhere at_j ⟨_, unfinished⟩ => ?_, fun row member _ => ⟨sound, confirmed row member⟩⟩
    have ended := others (other, j) (List.mem_zipIdx_iff_getElem?.mpr at_j)
    simp only [elsewhere, decide_false, Bool.false_or] at ended
    rw [ended] at unfinished
    cases unfinished
  · rintro index choice thread r limit rfl at_index _ _ issues read _
    have performs : performed cfg (.step index choice : ServiceLabel) = some _ :=
      Performs.performed ⟨⟨choice, rfl⟩, at_index, issues⟩
    simp only [orderly, performs, at_index, Option.all_some, List.all_eq_true] at holds
    simpa using holds _ read

/-- The request at `index` has ended with this transaction. -/
def settledBy (cfg : Service) (index : Nat) (txSignature : String) : Bool :=
  match cfg.threads[index]? with
  | some ⟨_, _, .ret (.settled tx _)⟩ => tx = txSignature
  | _ => false

theorem settledBy_of {cfg : Service} {index : Nat} {txSignature : String}
    (settled : settledBy cfg index txSignature = true) :
    ∃ thread explorerURL, cfg.threads[index]? = some thread ∧
      thread.program = .ret (.settled txSignature explorerURL) := by
  unfold settledBy at settled
  split at settled
  · next found =>
    rw [← of_decide_eq_true settled]
    exact ⟨_, _, found, rfl⟩
  · cases settled

/-- The request at `index` recorded the agent's intent of the key. -/
def createdBy (cfg : Service) (index : Nat) (key : String) : Bool :=
  (cfg.threads[index]?).any fun thread => thread.log.any fun
    | ⟨.sql (.insertIntent intent), .ok _⟩ => intent.agentPubkey = Agents.agentPubkey && intent.idempotencyKey = some key
    | _ => false

theorem created_of {cfg : Service} {index : Nat} {thread : ServiceThread} (at_index : cfg.threads[index]? = some thread)
    (created : createdBy cfg index key = true) : Created Agents.agentPubkey key thread := by
  rw [createdBy, at_index, Option.any_some] at created
  obtain ⟨entry, member, inserted⟩ := List.any_eq_true.mp created
  split at inserted
  · simp only [Bool.and_eq_true, decide_eq_true_eq] at inserted
    exact ⟨_, inserted.1, inserted.2, member⟩
  · cases inserted

/-- The request at `index` has the key and was counted. -/
def retriedBy (cfg : Service) (index : Nat) (key : String) : Bool :=
  match cfg.threads[index]? with
  | some ⟨.createCheckout r, log, _⟩ => trimSpace r.idempotencyKey = key && log.any fun
      | ⟨.sql (.countHour agent), _⟩ => agent = Agents.agentPubkey
      | _ => false
  | _ => false

theorem retry_of {cfg : Service} {index : Nat} {thread : ServiceThread} (at_index : cfg.threads[index]? = some thread)
    (retried : retriedBy cfg index key = true) : Retry Agents.agentPubkey key thread := by
  rw [retriedBy, at_index] at retried
  split at retried
  · next same =>
    cases same
    simp only [Bool.and_eq_true, decide_eq_true_eq, List.any_eq_true] at retried
    obtain ⟨trimmed, entry, member, counted⟩ := retried
    split at counted
    · rw [decide_eq_true_eq] at counted
      subst counted
      exact ⟨⟨_, rfl, trimmed⟩, _, member⟩
    · cases counted
  · cases retried

def firstIntent : String := "2a4c6e80-1b3d-4f5a-8c7e-9d0b1f2e3a4c"
def firstTx : String := "3b5d7f91-2c4e-4a6b-9d8f-0e1c2a3f4b5d"

/-- The key comes again: by the general result it is answered as before. -/
theorem retries_repeat_outcome_meetup : ∃ (last after : Service) (creator current : ServiceThread)
    (explorerURL : String) (answer' : Answer),
    (machine environment).next last (.step 1 ⟨none, none⟩) = some after ∧ last.threads[0]? = some creator ∧
    creator.program = .ret (.settled (mockSignature firstTx) explorerURL) ∧ after.threads[1]? = some current ∧
    current.program = .ret answer' ∧ answer' = .settled (mockSignature firstTx) explorerURL := by
  have ran : (course orderly [("order-1", steps 0 3 ++ settling 0 firstIntent firstTx), ("order-1", steps 1 2)]
      paying).any (fun last => (settledBy last 0 (mockSignature firstTx) && createdBy last 0 "order-1") &&
        (orderly last (.step 1 ⟨none, none⟩) && ((last.threads[1]?).any fun thread => !thread.program.finished) &&
          ((machine environment).next last (.step 1 ⟨none, none⟩)).any fun after => retriedBy after 1 "order-1" &&
            ((after.threads[1]?).any fun thread => thread.program.finished))) = true := by decide +kernel
  obtain ⟨last, run, done⟩ := course_meets orderly_free ran
  simp only [Bool.and_eq_true, Option.any_eq_true, Bool.not_eq_true'] at done
  obtain ⟨⟨settled, created⟩, ⟨in_order, retry, at_one, unfinished⟩, after, stepped, retried, current, at_after,
    ended⟩ := done
  obtain ⟨creator, explorerURL, at_zero, answered⟩ := settledBy_of settled
  cases answer : current.program with
  | call op next =>
      rw [answer] at ended
      cases ended
  | ret answer' =>
      have repeated := (retries_repeat_outcome paying_unserved).2 last (run.mono fun _ _ => orderly_of) _ after
        (orderly_of in_order) stepped 0 1 creator retry current _ answer' at_zero (created_of at_zero created)
        answered at_one unfinished at_after (retry_of at_after retried) answer
      exact ⟨last, after, creator, current, explorerURL, answer', stepped, at_zero, answered, at_after, answer,
        repeated⟩

/-- The request at `index` has ended with a refusal. -/
def refusedAt (cfg : Service) (index : Nat) : Bool :=
  match cfg.threads[index]? with
  | some ⟨_, _, .ret (.error _ status)⟩ => status = 403
  | _ => false

theorem refusedAt_of {cfg : Service} {index : Nat} (refused : refusedAt cfg index = true) :
    ∃ thread text, cfg.threads[index]? = some thread ∧ thread.program = .ret (.error text 403) := by
  unfold refusedAt at refused
  split at refused
  · next found =>
    rw [← of_decide_eq_true refused]
    exact ⟨_, _, found, rfl⟩
  · cases refused

/-- One complete request after another, under an hourly limit of one: the repetition is
refused, whatever the first was answered. -/
theorem retry_refused : ∃ (last : Service) (creator retry : ServiceThread) (explorerURL text : String),
    Unserved (payingUnder ⟨500, 1, none, none, true⟩) ∧
    (machine environment).Reaches (fun cfg label => oneAtATime cfg label = true)
      (payingUnder ⟨500, 1, none, none, true⟩) last ∧
    last.threads[0]? = some creator ∧ last.threads[1]? = some retry ∧ Created Agents.agentPubkey "order-1" creator ∧
    creator.program = .ret (.settled (mockSignature firstTx) explorerURL) ∧ Retry Agents.agentPubkey "order-1" retry ∧
    retry.program = .ret (.error text 403) := by
  have ran : (course oneAtATime [("order-1", steps 0 3 ++ settling 0 firstIntent firstTx), ("order-1", steps 1 2)]
      (payingUnder ⟨500, 1, none, none, true⟩)).any (fun last =>
        (settledBy last 0 (mockSignature firstTx) && createdBy last 0 "order-1") &&
          (refusedAt last 1 && retriedBy last 1 "order-1")) = true := by decide +kernel
  obtain ⟨last, run, done⟩ := course_meets (fun _ _ _ _ _ _ _ _ => rfl) ran
  simp only [Bool.and_eq_true] at done
  obtain ⟨⟨settled, created⟩, refused, retried⟩ := done
  obtain ⟨creator, explorerURL, at_zero, answered⟩ := settledBy_of settled
  obtain ⟨retry, text, at_one, refused⟩ := refusedAt_of refused
  exact ⟨last, creator, retry, explorerURL, text, payingUnder_unserved _, run, at_zero, at_one,
    created_of at_zero created, answered, retry_of at_one retried, refused⟩

end Meetup

end Payknot.AgentRuntime
