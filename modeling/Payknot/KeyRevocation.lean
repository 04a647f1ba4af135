import Payknot.Hosts
import Payknot.Serial

/-! What a change of an agent's key is worth after its request has been answered. The
table has it from its statement on; the cache has it from the invalidation on, unless a
refresh that read the table before writes its map afterwards. -/
namespace Payknot.AgentKeys
open GoText Interleaving Machine

variable {e : Environment} {a : String} {v : Option Bytes} {index : Nat}
variable {cfg after : Service} {label : ServiceLabel}

inductive Change where
  | upsert (key createdBy : String)
  | revoke

def Change.statement (a : String) : Change → Sql
  | .upsert key createdBy => .upsertKey a key createdBy
  | .revoke => .revokeKey a

def Change.key (e : Environment) : Change → Option Bytes
  | .upsert key _ => e.base64Decode key
  | .revoke => none

def Takes (statement : Sql) (cfg : Service) (label : ServiceLabel) : Prop :=
  ∃ index choice thread, label = .step index choice ∧ choice.fault = none ∧
    cfg.threads[index]? = some thread ∧ thread.Issues (.sql statement)

/-- The step puts another change of the same agent in force: any after a registration,
a registration only after a revocation. -/
def Change.Superseded (change : Change) (a : String) (cfg : Service) (label : ServiceLabel) : Prop :=
  (∃ key createdBy, Takes (.upsertKey a key createdBy) cfg label) ∨
    (change ≠ .revoke ∧ Takes (.revokeKey a) cfg label)

section Agreement

/-- Every read of the keys would now answer `v` for this agent. -/
structure Agreeing (e : Environment) (a : String) (v : Option Bytes) (cfg : Service) : Prop where
  table : tableKey e cfg.world.rows a = v
  cached : ∀ keys, cfg.world.cache.keys = some keys → lookupKey (some keys) a = v
  /-- A refresh that has read the table but not yet written the cache. -/
  held : ∀ thread ∈ cfg.threads, ∀ keys expiresAt, thread.Issues (.writeCache keys expiresAt) →
    lookupKey keys a = v

/-- A read of the table that this step makes puts `v` in force. -/
def ReadsAgree (e : Environment) (a : String) (v : Option Bytes) (cfg : Service)
    (label : ServiceLabel) : Prop :=
  ∀ index choice thread, label = .step index choice → cfg.threads[index]? = some thread →
    thread.Issues (.sql .selectActiveKeys) →
    lookupKey (refreshed e (runSql choice .selectActiveKeys cfg.world).1) a = v

/-- The calls from position `n` on have read nothing but `v`. -/
def LateAgree (e : Environment) (a : String) (v : Option Bytes) (n : Nat) (cfg : Service) : Prop :=
  ∀ j thread, n ≤ j → cfg.threads[j]? = some thread →
    ∀ keys, Source e thread.log keys → lookupKey keys a = v

/-- Where a refresh about to write the cache comes from: it is as before, or has read
the table just now. -/
theorem held_after (orderly : Orderly e after) (stepped : (machine e).next cfg label = some after)
    {j : Nat} {current : ServiceThread} (found : after.threads[j]? = some current)
    {keys : Option KeyMap} {expiresAt : Time} (writes : current.Issues (.writeCache keys expiresAt)) :
    cfg.threads[j]? = some current ∨
      ∃ choice thread, label = .step j choice ∧ cfg.threads[j]? = some thread ∧
        thread.Issues (.sql .selectActiveKeys) ∧
        keys = refreshed e (runSql choice .selectActiveKeys cfg.world).1 := by
  obtain ⟨_, reply, earlier, log, same⟩ :=
    orderly.disciplined.issues (List.mem_of_getElem? found) writes
  rcases thread_after stepped found with old | ⟨request, _, rfl, _⟩ |
    ⟨choice, thread, op, rest, answered, step, at_j, program, executed, rfl⟩
  · exact .inl old
  · cases log
  · simp only [Thread.resumed, List.cons.injEq, Entry.mk.injEq] at log
    obtain ⟨⟨rfl, answered_same⟩, _⟩ := log
    have ran := Option.some.inj executed
    cases answered_same
    refine .inr ⟨choice, thread, step, at_j, ⟨rest, program⟩, ?_⟩
    rw [same, ran]

theorem agreeing_next (orderly : Orderly e cfg) (agreeing : Agreeing e a v cfg)
    (table : tableKey e after.world.rows a = v) (reads : ReadsAgree e a v cfg label)
    (stepped : (machine e).next cfg label = some after) : Agreeing e a v after := by
  constructor
  · exact table
  · intro keys stored
    rcases next_cases stepped with ⟨_, _, rfl⟩ | ⟨_, _, _, occurred, rfl⟩ |
      ⟨index, choice, thread, op, rest, reply, world, _, at_index, program, executed, rfl⟩
    · exact agreeing.cached keys stored
    · cases occurred
      exact agreeing.cached keys stored
    · rcases exec_cache executed with same | ⟨written, expiresAt, rfl, same⟩ | ⟨rfl, same⟩
      · rw [same] at stored
        exact agreeing.cached keys stored
      · rw [same] at stored
        have holds := agreeing.held thread (List.mem_of_getElem? at_index) written expiresAt
          ⟨rest, program⟩
        change written = some keys at stored
        rwa [stored] at holds
      · rw [same] at stored
        cases stored
  · intro current member keys expiresAt writes
    obtain ⟨j, found⟩ := List.mem_iff_getElem?.mp member
    rcases held_after (orderly.next stepped) stepped found writes with old |
      ⟨choice, thread, step, at_j, selects, rfl⟩
    · exact agreeing.held current (List.mem_of_getElem? old) keys expiresAt writes
    · exact reads j choice thread step at_j selects

theorem late_next {n : Nat} (agreeing : Agreeing e a v cfg) (held : LateAgree e a v n cfg)
    (reads : ReadsAgree e a v cfg label) (stepped : (machine e).next cfg label = some after) :
    LateAgree e a v n after := by
  intro j current late found keys source
  -- What the call read before the step it read from position `n` on as well.
  have earlier {thread : ServiceThread} (at_j : cfg.threads[j]? = some thread)
      (source : Source e thread.log keys) : lookupKey keys a = v := held j thread late at_j keys source
  cases source with
  | @cached stored expiresAt saw =>
      rcases saw_after stepped found saw with ⟨thread, at_j, _, saw⟩ |
        ⟨choice, thread, rest, _, _, _, executed, _⟩
      · exact earlier at_j (.cached saw)
      · have read := congrArg Prod.fst (Option.some.inj executed)
        exact agreeing.cached stored (congrArg AgentKeyCache.keys read)
  | @read reply saw =>
      rcases saw_after stepped found saw with ⟨thread, at_j, _, saw⟩ |
        ⟨choice, thread, rest, step, at_j, program, executed, _⟩
      · exact earlier at_j (.read saw)
      · have read := congrArg Prod.fst (Option.some.inj executed)
        have agrees := reads j choice thread step at_j ⟨rest, program⟩
        rwa [read] at agrees

end Agreement

section Change

/-- The change is in the table, its request about to invalidate the cache. -/
def Pending (index : Nat) (cfg : Service) : Prop :=
  ∃ thread, cfg.threads[index]? = some thread ∧ ∃ agentID, Changed agentID thread.log

/-- When the request at `index` invalidates the cache, no other call stands between its
read of the table and its write to the cache with a key of this agent that the table no
longer has. -/
def Unraced (e : Environment) (a : String) (index : Nat) (cfg : Service) (label : ServiceLabel) : Prop :=
  ∀ choice thread, label = .step index choice → cfg.threads[index]? = some thread →
    thread.Issues .invalidateCache →
    Others cfg index fun other => ∀ keys expiresAt, other.Issues (.writeCache keys expiresAt) →
      lookupKey keys a = tableKey e cfg.world.rows a

theorem pending_next (orderly : Orderly e cfg) (pending : Pending index cfg)
    (table : tableKey e cfg.world.rows a = v) (unraced : Unraced e a index cfg label)
    (stepped : (machine e).next cfg label = some after) :
    Pending index after ∨ Agreeing e a v after := by
  obtain ⟨thread, at_index, agentID, changed⟩ := pending
  have inside : index < cfg.threads.length := (List.getElem?_eq_some_iff.mp at_index).1
  have later := orderly.next stepped
  rcases next_cases stepped with ⟨_, rfl, rfl⟩ | ⟨_, _, rfl, occurred, rfl⟩ |
    ⟨moved, choice, stepping, op, rest, reply, world, rfl, at_moved, program, executed, rfl⟩
  · refine .inl ⟨thread, ?_, agentID, changed⟩
    rw [List.getElem?_append_left inside, at_index]
  · exact .inl ⟨thread, at_index, agentID, changed⟩
  · by_cases same : moved = index
    · -- The request's own step is the invalidation.
      subst same
      rw [at_index, Option.some.injEq] at at_moved
      subst at_moved
      have member := List.mem_of_getElem? at_index
      have invalidates := (orderly.disciplined.issues member ⟨rest, program⟩).1 agentID changed
      subst invalidates
      cases executed
      refine .inr ⟨table, ?_, ?_⟩
      · intro keys stored
        cases stored
      · intro current among keys expiresAt writes
        obtain ⟨j, found⟩ := List.mem_iff_getElem?.mp among
        rcases held_after later stepped found writes with old | ⟨_, reading, step, at_j, selects, _⟩
        · have elsewhere := old_elsewhere stepped old found
          rw [← table]
          exact unraced choice thread rfl at_index ⟨rest, program⟩ j current elsewhere old keys
            expiresAt writes
        · cases step
          rw [at_index, Option.some.injEq] at at_j
          subst at_j
          obtain ⟨_, selecting⟩ := selects
          rw [program] at selecting
          cases selecting
    · refine .inl ⟨thread, ?_, agentID, changed⟩
      rw [List.getElem?_set_ne same, at_index]

-- The table keeps the change until another one supersedes it.
theorem table_next (orderly : Orderly e cfg) {change : Change}
    (table : tableKey e cfg.world.rows a = change.key e) (stays : ¬ change.Superseded a cfg label)
    (stepped : (machine e).next cfg label = some after) :
    tableKey e after.world.rows a = change.key e := by
  rcases next_cases stepped with ⟨_, _, rfl⟩ | ⟨_, _, _, occurred, rfl⟩ |
    ⟨index, choice, thread, op, rest, reply, world, rfl, at_index, program, executed, rfl⟩
  · exact table
  · cases occurred
    exact table
  · have warrant := orderly.disciplined.issues (List.mem_of_getElem? at_index) ⟨rest, program⟩
    rcases exec_rows executed with same | ⟨agentID, key, createdBy, rfl, sound, same⟩ |
      ⟨agentID, rfl, sound, same⟩
    · rw [same]
      exact table
    · have other : a ≠ agentID := by
        rintro rfl
        exact stays (.inl ⟨key, createdBy, index, choice, thread, rfl, sound, at_index, rest, program⟩)
      obtain ⟨claims, body, bytes, _, rfl, _⟩ := warrant.2
      rw [same, tableKey_upsertRow_other orderly.tidy (trimSpace_trimSpace _) other]
      exact table
    · rw [same]
      by_cases of_agent : a = agentID
      · subst of_agent
        rw [tableKey_revokeRow orderly.tidy]
        cases change with
        | revoke => rfl
        | upsert key createdBy =>
            exact absurd (.inr ⟨by simp, index, choice, thread, rfl, sound, at_index, rest, program⟩)
              stays
      · rw [tableKey_revokeRow_other orderly.tidy _ of_agent]
        exact table

/-- In a run from `init` whose steps meet `allowed`, the request at `index` performs the
statement, which succeeds. -/
def Executes (e : Environment) (allowed : Service → ServiceLabel → Prop) (statement : Sql) (index : Nat)
    (init changed : Service) : Prop :=
  ∃ before choice thread, (machine e).Reaches allowed init before ∧ allowed before (.step index choice) ∧
    choice.fault = none ∧
    Performs before (.step index choice : ServiceLabel) index thread (.sql statement) ∧
    (machine e).next before (.step index choice) = some changed

/-- A statement that succeeds leaves its agent's row changed and its request before the
invalidation. -/
theorem executed_pending {allowed : Service → ServiceLabel → Prop} {init changed : Service}
    (change : Change) (orderly : Orderly e init)
    (executes : Executes e allowed (change.statement a) index init changed) :
    Orderly e changed ∧ tableKey e changed.world.rows a = change.key e ∧ Pending index changed := by
  obtain ⟨before, choice, thread, run, _, sound, ⟨_, at_index, rest, program⟩, stepped⟩ := executes
  have held := orderly_reached orderly run
  have warrant := held.disciplined.issues (List.mem_of_getElem? at_index) ⟨rest, program⟩
  have inside : index < before.threads.length := (List.getElem?_eq_some_iff.mp at_index).1
  refine ⟨held.next stepped, ?_⟩
  simp only [Machine.next, at_index, program, machine, exec, runSql, sound] at stepped
  cases change with
  | upsert key createdBy =>
      cases stepped
      obtain ⟨claims, body, bytes, _, rfl, named, rfl, _, decoded, size⟩ := warrant.2
      constructor
      · rw [Change.key, decoded]
        exact tableKey_upsertRow held.tidy (trimSpace_trimSpace _) named
          (by rw [trimSpace_trimSpace]; exact decoded) size
      · exact ⟨_, List.getElem?_set_self inside, _, .upsert _ _ _⟩
  | revoke =>
      cases stepped
      exact ⟨tableKey_revokeRow held.tidy a _, _, List.getElem?_set_self inside, a, .revoke _⟩

end Change

/-- What a call that read nothing but `v` answers. -/
def AnswersWith (e : Environment) (a : String) (v : Option Bytes) (call : ServiceThread) : Prop :=
  (∀ keys, call.program = .ret (.keys keys) → lookupKey keys a = v) ∧
  (∀ agentID r claims, call.request = .verify agentID r → trimSpace agentID = a →
    call.program = .ret (.verified (some claims)) →
    ∃ key ts now, v = some key ∧ signatureHolds e.toCrypto r key ts now = true)

theorem lateAgree_answers {n j : Nat} {call : ServiceThread} (orderly : Orderly e cfg)
    (agree : LateAgree e a v n cfg) (late : n ≤ j) (at_j : cfg.threads[j]? = some call) :
    AnswersWith e a v call := by
  have member := List.mem_of_getElem? at_j
  constructor
  · intro keys answered
    exact agree j call late at_j keys (orderly.disciplined.ends member answered).2
  · intro agentID r claims request named answered
    obtain ⟨id, r', keys, key, ts, now, asked, source, found, holds⟩ :=
      (orderly.disciplined.ends member answered).2
    rw [request] at asked
    cases asked
    refine ⟨key, ts, now, ?_, holds⟩
    rw [← agree j call late at_j keys source, ← named, found]

section Computed
open Hosts

def revokesAt (cfg : Service) (index : Nat) (a : String) : Bool :=
  match cfg.threads[index]? with
  | some ⟨_, _, .call (.sql (.revokeKey agentID)) _⟩ => agentID = a
  | _ => false

def quiet (a : String) (cfg : Service) (label : ServiceLabel) : Bool :=
  match performed cfg label with
  | some (.sql (.upsertKey agentID _ _)) => agentID ≠ a
  | some (.sql (.revokeKey agentID)) => agentID ≠ a
  | _ => true

def hasKey (cfg : Service) (index : Nat) (a : String) : Bool :=
  match cfg.threads[index]? with
  | some ⟨_, _, .ret (.keys keys)⟩ => (lookupKey keys a).isSome
  | _ => false

def answersKeys (cfg : Service) (index : Nat) : Bool :=
  match cfg.threads[index]? with
  | some ⟨.agentPublicKeys, _, .ret (.keys _)⟩ => true
  | _ => false

def answersOk (cfg : Service) (index : Nat) (a : String) : Bool :=
  match cfg.threads[index]? with
  | some ⟨_, _, .ret (.ok agentID)⟩ => agentID = a
  | _ => false

theorem Takes.performed {statement : Sql} (taken : Takes statement cfg label) :
    performed cfg label = some (.sql statement) := by
  obtain ⟨index, choice, thread, rfl, _, at_index, issues⟩ := taken
  exact Performs.performed ⟨⟨choice, rfl⟩, at_index, issues⟩

theorem no_upsert_of_quiet (quiet_step : quiet a cfg label = true) (key createdBy : String) :
    ¬ Takes (.upsertKey a key createdBy) cfg label := by
  intro taken
  simp [quiet, taken.performed] at quiet_step

theorem stays_of_quiet (quiet_step : quiet a cfg label = true) (change : Change) :
    ¬ change.Superseded a cfg label := by
  rintro (⟨key, createdBy, taken⟩ | ⟨_, taken⟩)
  · exact no_upsert_of_quiet quiet_step key createdBy taken
  · simp [quiet, taken.performed] at quiet_step

theorem answersKeys_of (keys_call : answersKeys cfg index = true) :
    ∃ thread keys, cfg.threads[index]? = some thread ∧ thread.program = .ret (.keys keys) := by
  unfold answersKeys at keys_call
  split at keys_call
  · next found => exact ⟨_, _, found, rfl⟩
  · cases keys_call

theorem hasKey_of (has : hasKey cfg index a = true) : ∃ thread keys key,
    cfg.threads[index]? = some thread ∧ thread.program = .ret (.keys keys) ∧
      lookupKey keys a = some key := by
  unfold hasKey at has
  split at has
  · next keys found =>
    obtain ⟨key, some_key⟩ := Option.isSome_iff_exists.mp has
    exact ⟨_, keys, key, found, rfl, some_key⟩
  · cases has

theorem answersOk_of (ok : answersOk cfg index a = true) :
    ∃ thread, cfg.threads[index]? = some thread ∧ thread.program = .ret (.ok a) := by
  unfold answersOk at ok
  split at ok
  · next agentID found =>
    rw [decide_eq_true_eq] at ok
    subst ok
    exact ⟨_, found, rfl⟩
  · cases ok

-- A computed run up to a revocation's statement.
theorem executes_of_run (allowed : Service → ServiceLabel → Bool) (labels : List ServiceLabel)
    (index : Nat) (a : String) (check : Service → Bool)
    (computed : ((machine e).run allowed labels opening).any (fun before =>
      revokesAt before index a && (allowed before (.step index sound) &&
        ((machine e).next before (.step index sound)).any check)) = true) :
    ∃ changed, Executes e (fun cfg label => allowed cfg label = true) (.revokeKey a) index opening changed ∧
      check changed = true := by
  obtain ⟨before, run, done⟩ := run_meets (machine e) allowed labels opening _ computed
  simp only [Bool.and_eq_true] at done
  obtain ⟨revokes, meets, after⟩ := done
  obtain ⟨changed, stepped, checked⟩ := (Option.any_eq_true _ _).mp after
  refine ⟨changed, ⟨before, sound, ?_⟩, checked⟩
  unfold revokesAt at revokes
  split at revokes
  · next request log agentID rest found =>
    rw [decide_eq_true_eq] at revokes
    subst revokes
    exact ⟨_, run, meets, rfl, ⟨⟨sound, rfl⟩, found, rest, rfl⟩, stepped⟩
  · cases revokes

end Computed

section Revoked

theorem lookupKey_eq_none_iff {keys : KeyMap} :
    lookupKey (some keys) a = none ↔ ∀ key, (a, key) ∉ keys := by
  refine ⟨fun absent key among => ?_, lookupKey_eq_none⟩
  simp only [lookupKey, Option.getD_some, Option.map_eq_none_iff, List.find?_eq_none] at absent
  exact absurd (decide_eq_true rfl) (absent _ among)

theorem delivered_subset (choice : Choice) (keys : List (String × String)) :
    choice.delivered keys ⊆ keys := by
  unfold Choice.delivered
  split
  · exact List.Subset.refl keys
  · exact List.take_subset _ keys

/-- The environment has no usable key for the agent, or the reads of the table that this
step makes find a usable key of some agent. -/
def FromTable (e : Environment) (a : String) (cfg : Service) (label : ServiceLabel) : Prop :=
  lookupKey (agentPublicKeysFromEnv e) a = none ∨
    ∀ index choice thread, label = .step index choice → cfg.threads[index]? = some thread →
      thread.Issues (.sql .selectActiveKeys) →
      choice.fault = none ∧ collectKeys e (choice.delivered (activeKeys cfg.world.rows)) ≠ []

theorem fromTable_reads (table : tableKey e cfg.world.rows a = none) (allowed : FromTable e a cfg label) :
    ReadsAgree e a none cfg label := by
  intro index choice thread step at_index selects
  -- Whatever part of the table is delivered has no key for the agent either.
  have absent : lookupKey (some (collectKeys e (choice.delivered (activeKeys cfg.world.rows)))) a = none := by
    rw [lookupKey_eq_none_iff]
    intro key among
    obtain ⟨entry, listed, usable⟩ := mem_collectKeys.mp among
    exact lookupKey_eq_none_iff.mp table key
      (mem_collectKeys.mpr ⟨entry, delivered_subset _ _ listed, usable⟩)
  cases fault : choice.fault with
  | some text =>
      rcases allowed with outside | found
      · simpa [runSql, fault, refreshed, keysInForce, Except.map] using outside
      · have sound := (found index choice thread step at_index selects).1
        rw [fault] at sound
        cases sound
  | none =>
      simp only [runSql, fault, refreshed, keysInForce, Except.map]
      split
      · next empty =>
        rcases allowed with outside | found
        · exact outside
        · exact absurd (List.isEmpty_iff.mp empty) (found index choice thread step at_index selects).2
      · exact absent

/-- Complete requests one at a time: after a revocation has been answered, and until the
agent is registered again, no call finds a key for it and no signature in its name is
accepted, provided that no refresh in between falls back on an environment that has one. -/
theorem revoked_key_stays_revoked {init changed last : Service} {index j : Nat} {call : ServiceThread}
    (fresh : Fresh init)
    (revokes : Executes e (fun cfg label => oneAtATime cfg label = true) (.revokeKey a) index init changed)
    (later : (machine e).Reaches (fun cfg label => oneAtATime cfg label = true ∧
      (∀ key createdBy, ¬ Takes (.upsertKey a key createdBy) cfg label) ∧ FromTable e a cfg label)
      changed last)
    (arrived : changed.threads.length ≤ j) (at_j : last.threads[j]? = some call) :
    (∀ keys, call.program = .ret (.keys keys) → lookupKey keys a = none) ∧
    (∀ agentID r claims, call.request = .verify agentID r → trimSpace agentID = a →
      call.program ≠ .ret (.verified (some claims))) := by
  have executed := executed_pending .revoke fresh.orderly revokes
  obtain ⟨before, choice, stepping, run, waits, _, _, stepped⟩ := revokes
  have nobody : AtMostOneBusy init := by
    intro i _ thread _ at_i
    simp [fresh.threads] at at_i
  have one := (Reaches.alone (run.mono fun _ _ allowed => (⟨allowed, trivial⟩ : _ ∧ True)) nobody).2
  have one := atMostOneBusy_next one waits stepped
  -- Until the revocation is answered nobody arrives and nobody else moves.
  have held := (Reaches.alone (later.mono fun _ _ allowed => ⟨allowed.1, allowed⟩) one).1.invariant
    (fun cfg => Orderly e cfg ∧ tableKey e cfg.world.rows a = Change.revoke.key e ∧
      ((Pending index cfg ∧ cfg.threads.length = changed.threads.length) ∨
        (Agreeing e a none cfg ∧ LateAgree e a none changed.threads.length cfg)))
    ⟨executed.1, executed.2.1, .inl ⟨executed.2.2, rfl⟩⟩ ?_
  · obtain ⟨orderly, _, ⟨_, same⟩ | ⟨_, agree⟩⟩ := held
    · have inside := (List.getElem?_eq_some_iff.mp at_j).1
      omega
    · obtain ⟨keys_answer, verify_answer⟩ := lateAgree_answers orderly agree arrived at_j
      refine ⟨keys_answer, fun agentID r claims asked named answered => ?_⟩
      obtain ⟨key, _, _, some_key, _⟩ := verify_answer agentID r claims asked named answered
      cases some_key
  · rintro cfg label after ⟨orderly, table, phase⟩ ⟨one, waits, no_upsert, allowed⟩ stepped
    have stays : ¬ Change.revoke.Superseded a cfg label := by
      rintro (⟨key, createdBy, taken⟩ | ⟨different, _⟩)
      · exact no_upsert key createdBy taken
      · exact different rfl
    have reads := fromTable_reads table allowed
    have kept := table_next orderly table stays stepped
    refine ⟨orderly.next stepped, kept, ?_⟩
    rcases phase with ⟨pending, same⟩ | ⟨agreeing, agree⟩
    · obtain ⟨thread, at_index, agentID, has_changed⟩ := pending
      have busy : thread.program.finished = false := by
        cases program : thread.program with
        | ret answer =>
            have ended := orderly.disciplined.ends (List.mem_of_getElem? at_index) program
            exact absurd has_changed (ended.1 agentID)
        | call op rest => rfl
      have unraced : Unraced e a index cfg label := by
        intro choice current _ at_current _ other_index other elsewhere at_other keys expiresAt writes
        refine absurd ?_ elsewhere
        obtain ⟨rest, program⟩ := writes
        exact one other_index index other thread at_other at_index (by rw [program]; rfl) busy
      have length : after.threads.length = cfg.threads.length := by
        rcases next_cases stepped with ⟨request, rfl, rfl⟩ | ⟨_, _, rfl, _, rfl⟩ |
          ⟨_, _, _, _, _, _, _, rfl, _, _, _, rfl⟩
        · have finished := List.all_eq_true.mp waits thread (List.mem_of_getElem? at_index)
          rw [busy] at finished
          cases finished
        · rfl
        · simp
      rcases pending_next orderly ⟨thread, at_index, agentID, has_changed⟩ table unraced stepped with
        pending | agreeing
      · exact .inl ⟨pending, length.trans same⟩
      · refine .inr ⟨agreeing, fun j current late at_j => ?_⟩
        have inside := (List.getElem?_eq_some_iff.mp at_j).1
        omega
    · exact .inr ⟨agreeing_next orderly agreeing kept reads stepped,
        late_next agreeing agree reads stepped⟩

section Meetup
open Hosts

def untilRevoked : List ServiceLabel :=
  .arrive (register alice "agent-a" aliceKey) :: steps 0 2 ++ [.arrive (revoke alice "agent-a")]

def afterRevoked : List ServiceLabel := steps 1 1 ++ .arrive .agentPublicKeys :: steps 2 4

/-- The same, by the general result, where the environment has a key for another agent. -/
theorem revoked_key_stays_revoked_meetup : ∃ (changed last : Service) (call : ServiceThread) (keys : Option KeyMap),
    Executes (environment (oneAgent "agent-b")) (fun cfg label => oneAtATime cfg label = true)
      (.revokeKey "agent-a") 1 opening changed ∧
    changed.threads.length ≤ 2 ∧ last.threads[2]? = some call ∧ call.program = .ret (.keys keys) ∧
    lookupKey keys "agent-a" = none := by
  obtain ⟨changed, executes, done⟩ := executes_of_run (e := environment (oneAgent "agent-b"))
    oneAtATime untilRevoked 1 "agent-a" (fun changed => changed.threads.length = 2 &&
      ((machine (environment (oneAgent "agent-b"))).run
        (fun cfg label => oneAtATime cfg label && quiet "agent-a" cfg label) afterRevoked changed).any
          fun last => answersKeys last 2) (by decide +kernel)
  simp only [Bool.and_eq_true, decide_eq_true_eq] at done
  obtain ⟨length, done⟩ := done
  obtain ⟨last, later, answers⟩ := run_meets _ _ _ changed _ done
  obtain ⟨call, keys, at_call, answered⟩ := answersKeys_of answers
  have elsewhere : lookupKey (agentPublicKeysFromEnv (environment (oneAgent "agent-b"))) "agent-a" = none := by
    decide +kernel
  have absent := revoked_key_stays_revoked opening_fresh executes
    (later.mono fun _ _ both => by
      simp only [Bool.and_eq_true] at both
      exact ⟨both.1, no_upsert_of_quiet both.2, .inl elsewhere⟩) (by omega) at_call
  exact ⟨changed, last, call, keys, executes, by omega, at_call, answered, absent.1 keys answered⟩

/-- The environment still has the agent's key, and its row was the only usable one: the
first call after the revocation finds the key in the environment. -/
theorem environment_revives_revoked_key : ∃ (changed last : Service) (call : ServiceThread) (keys : Option KeyMap)
    (key : Bytes),
    Executes (environment (oneAgent "agent-a")) (fun cfg label => oneAtATime cfg label = true)
      (.revokeKey "agent-a") 1 opening changed ∧
    (machine (environment (oneAgent "agent-a"))).Reaches (fun cfg label => oneAtATime cfg label = true ∧
      ∀ key createdBy, ¬ Takes (.upsertKey "agent-a" key createdBy) cfg label) changed last ∧
    changed.threads.length ≤ 2 ∧ last.threads[2]? = some call ∧ call.program = .ret (.keys keys) ∧
    lookupKey keys "agent-a" = some key := by
  obtain ⟨changed, executes, done⟩ := executes_of_run (e := environment (oneAgent "agent-a"))
    oneAtATime untilRevoked 1 "agent-a" (fun changed => changed.threads.length = 2 &&
      ((machine (environment (oneAgent "agent-a"))).run
        (fun cfg label => oneAtATime cfg label && quiet "agent-a" cfg label) afterRevoked changed).any
          fun last => hasKey last 2 "agent-a") (by decide +kernel)
  simp only [Bool.and_eq_true, decide_eq_true_eq] at done
  obtain ⟨length, done⟩ := done
  obtain ⟨last, later, has⟩ := run_meets _ _ _ changed _ done
  obtain ⟨call, keys, key, at_call, answered, found⟩ := hasKey_of has
  refine ⟨changed, last, call, keys, key, executes, later.mono fun _ _ both => ?_, by omega, at_call,
    answered, found⟩
  simp only [Bool.and_eq_true] at both
  exact ⟨both.1, no_upsert_of_quiet both.2⟩

end Meetup

end Revoked

section Concurrent

def Choice.Sound (choice : Choice) : Prop := choice.fault = none ∧ choice.cut = none

theorem sound_reads (unset : agentPublicKeysFromEnv e = none) (table : tableKey e cfg.world.rows a = v)
    (sound : soundSteps Choice.Sound cfg label) : ReadsAgree e a v cfg label := by
  intro index choice thread step _ _
  obtain ⟨no_fault, whole⟩ := sound index choice step
  simp only [runSql, no_fault, refreshed, keysInForce, Except.map, Choice.delivered, whole]
  split
  · next empty =>
    rw [unset, ← table, tableKey, List.isEmpty_iff.mp empty]
    rfl
  · exact table

theorem fromEnv_unset (unset : trimSpace e.agentPublicKeysJSON = "") : agentPublicKeysFromEnv e = none := by
  simp [agentPublicKeysFromEnv, unset]

/-- Any interleaving, with nothing in the environment and no statement failing: once a
change of an agent's key has been answered, every call that starts later and ends before
another change finds just that key, provided that the invalidation was unraced. -/
theorem change_outlasts_refreshes (unset : trimSpace e.agentPublicKeysJSON = "") {change : Change}
    {init changed responded last : Service} {index j : Nat} {answered call : ServiceThread}
    (fresh : Fresh init)
    (changes : Executes e (soundSteps Choice.Sound) (change.statement a) index init changed)
    (completes : (machine e).Reaches (fun cfg label => soundSteps Choice.Sound cfg label ∧
      ¬ change.Superseded a cfg label ∧ Unraced e a index cfg label) changed responded)
    (at_index : responded.threads[index]? = some answered) (ended : answered.program = .ret (.ok a))
    (later : (machine e).Reaches (fun cfg label => soundSteps Choice.Sound cfg label ∧
      ¬ change.Superseded a cfg label) responded last)
    (arrived : responded.threads.length ≤ j) (at_j : last.threads[j]? = some call) :
    AnswersWith e a (change.key e) call := by
  have executed := executed_pending change fresh.orderly changes
  have answered_held := completes.invariant
    (fun cfg => Orderly e cfg ∧ tableKey e cfg.world.rows a = change.key e ∧
      (Pending index cfg ∨ Agreeing e a (change.key e) cfg))
    ⟨executed.1, executed.2.1, .inl executed.2.2⟩ ?_
  · obtain ⟨orderly, table, phase⟩ := answered_held
    have agreeing : Agreeing e a (change.key e) responded := by
      rcases phase with ⟨thread, at_thread, agentID, has_changed⟩ | agreeing
      · rw [at_index, Option.some.injEq] at at_thread
        subst at_thread
        have done := orderly.disciplined.ends (List.mem_of_getElem? at_index) ended
        exact absurd has_changed (done.1 agentID)
      · exact agreeing
    have held := later.invariant
      (fun cfg => Orderly e cfg ∧ Agreeing e a (change.key e) cfg ∧
        LateAgree e a (change.key e) responded.threads.length cfg)
      ⟨orderly, agreeing, fun j current late at_j => ?_⟩ ?_
    · exact lateAgree_answers held.1 held.2.2 arrived at_j
    · have inside := (List.getElem?_eq_some_iff.mp at_j).1
      omega
    · rintro cfg label after ⟨orderly, agreeing, agree⟩ ⟨sound, stays⟩ stepped
      have reads := sound_reads (fromEnv_unset unset) agreeing.table sound
      have kept := table_next orderly agreeing.table stays stepped
      exact ⟨orderly.next stepped, agreeing_next orderly agreeing kept reads stepped,
        late_next agreeing agree reads stepped⟩
  · rintro cfg label after ⟨orderly, table, phase⟩ ⟨sound, stays, unraced⟩ stepped
    have reads := sound_reads (fromEnv_unset unset) table sound
    have kept := table_next orderly table stays stepped
    refine ⟨orderly.next stepped, kept, ?_⟩
    rcases phase with pending | agreeing
    · exact pending_next orderly pending table unraced stepped
    · exact .inr (agreeing_next orderly agreeing kept reads stepped)

section Meetup
open Hosts

/-- A registration, a refresh up to `reads` steps, and a revocation before its statement. -/
def refreshing (reads : Nat) : List ServiceLabel :=
  .arrive (register alice "agent-a" aliceKey) :: steps 0 2 ++ .arrive .agentPublicKeys :: steps 1 reads ++
    [.arrive (revoke alice "agent-a")]

def soundStep (_ : Service) (label : ServiceLabel) : Bool :=
  match label with
  | .step _ choice => choice.fault.isNone && choice.cut.isNone
  | _ => true

theorem soundSteps_of (is_sound : soundStep cfg label = true) : soundSteps Choice.Sound cfg label := by
  rintro index choice rfl
  simpa [soundStep, Choice.Sound] using is_sound

def noWriter (cfg : Service) : Bool :=
  cfg.threads.all fun
    | ⟨_, _, .call (.writeCache _ _) _⟩ => false
    | _ => true

theorem unraced_of_noWriter (nobody : noWriter cfg = true) : Unraced e a index cfg label := by
  rintro _ _ _ _ _ j ⟨request, log, program⟩ _ at_j keys expiresAt ⟨rest, rfl⟩
  have quiet := List.all_eq_true.mp nobody _ (List.mem_of_getElem? at_j)
  cases quiet

def takesStep (index : Nat) : ServiceLabel → Bool
  | .step other _ => other == index
  | _ => false

/-- A refresh that reads the table before the revocation and writes the cache before the
invalidation: the next call finds no key. -/
theorem change_outlasts_refreshes_meetup : ∃ (responded last : Service) (call : ServiceThread)
    (keys : Option KeyMap),
    answersOk responded 2 "agent-a" = true ∧ responded.threads.length ≤ 3 ∧
    last.threads[3]? = some call ∧ call.program = .ret (.keys keys) ∧
    lookupKey keys "agent-a" = none := by
  obtain ⟨changed, executes, done⟩ := executes_of_run (e := environment "")
    soundStep (refreshing 3) 2 "agent-a" (fun changed =>
      ((machine (environment "")).run (fun cfg label => soundStep cfg label &&
          (quiet "agent-a" cfg label && (noWriter cfg || takesStep 1 label)))
        (steps 1 1 ++ steps 2 1) changed).any fun responded =>
          answersOk responded 2 "agent-a" && (responded.threads.length = 3 &&
          ((machine (environment "")).run (fun cfg label => soundStep cfg label && quiet "agent-a" cfg label)
            (.arrive .agentPublicKeys :: steps 3 4) responded).any fun last => answersKeys last 3))
    (by decide +kernel)
  obtain ⟨responded, completes, done⟩ := run_meets _ _ _ changed _ done
  simp only [Bool.and_eq_true, decide_eq_true_eq] at done
  obtain ⟨ok, length, done⟩ := done
  obtain ⟨last, later, answers⟩ := run_meets _ _ _ responded _ done
  obtain ⟨call, keys, at_call, answered⟩ := answersKeys_of answers
  obtain ⟨revocation, at_two, ended⟩ := answersOk_of ok
  obtain ⟨before, choice, thread, run, meets, rest⟩ := executes
  have revokes : Executes (environment "") (soundSteps Choice.Sound) (Change.revoke.statement "agent-a") 2
      opening changed :=
    ⟨before, choice, thread, run.mono fun _ _ => soundSteps_of, soundSteps_of meets, rest⟩
  have absent := change_outlasts_refreshes (e := environment "") (by decide +kernel) opening_fresh revokes
    (completes.mono fun cfg label all => by
      simp only [Bool.and_eq_true, Bool.or_eq_true] at all
      refine ⟨soundSteps_of all.1, stays_of_quiet all.2.1 _, ?_⟩
      rcases all.2.2 with nobody | refresh
      · exact unraced_of_noWriter nobody
      · rintro _ _ rfl
        cases refresh)
    at_two ended
    (later.mono fun _ _ both => by
      simp only [Bool.and_eq_true] at both
      exact ⟨soundSteps_of both.1, stays_of_quiet both.2 _⟩)
    (by omega) at_call
  exact ⟨responded, last, call, keys, ok, by omega, at_call, answered, absent.1 keys answered⟩

/-- The refresh writes its map after the invalidation, and the next call finds the revoked
key in the cache. -/
theorem stale_refresh_revives_key : ∃ (changed responded last : Service) (call : ServiceThread)
    (keys : Option KeyMap) (key : Bytes),
    trimSpace (environment "").agentPublicKeysJSON = "" ∧
    Executes (environment "") (soundSteps Choice.Sound) (.revokeKey "agent-a") 2 opening changed ∧
    (machine (environment "")).Reaches (fun cfg label => soundSteps Choice.Sound cfg label ∧
      ¬ Change.revoke.Superseded "agent-a" cfg label) changed responded ∧
    (∃ answered, responded.threads[2]? = some answered ∧ answered.program = .ret (.ok "agent-a")) ∧
    (machine (environment "")).Reaches (fun cfg label => soundSteps Choice.Sound cfg label ∧
      ¬ Change.revoke.Superseded "agent-a" cfg label) responded last ∧
    responded.threads.length ≤ 3 ∧ last.threads[3]? = some call ∧ call.program = .ret (.keys keys) ∧
    lookupKey keys "agent-a" = some key := by
  obtain ⟨changed, executes, done⟩ := executes_of_run (e := environment "")
    soundStep (refreshing 3) 2 "agent-a" (fun changed =>
      ((machine (environment "")).run (fun cfg label => soundStep cfg label && quiet "agent-a" cfg label)
        (steps 2 1) changed).any fun responded =>
          answersOk responded 2 "agent-a" && (responded.threads.length = 3 &&
          ((machine (environment "")).run (fun cfg label => soundStep cfg label && quiet "agent-a" cfg label)
            (steps 1 1 ++ .arrive .agentPublicKeys :: steps 3 2) responded).any
              fun last => hasKey last 3 "agent-a")) (by decide +kernel)
  obtain ⟨responded, completes, done⟩ := run_meets _ _ _ changed _ done
  simp only [Bool.and_eq_true, decide_eq_true_eq] at done
  obtain ⟨ok, length, done⟩ := done
  obtain ⟨last, later, has⟩ := run_meets _ _ _ responded _ done
  obtain ⟨call, keys, key, at_call, answered, found⟩ := hasKey_of has
  obtain ⟨before, choice, thread, run, meets, rest⟩ := executes
  have still (cfg : Service) (label : ServiceLabel)
      (both : (soundStep cfg label && quiet "agent-a" cfg label) = true) :
      soundSteps Choice.Sound cfg label ∧ ¬ Change.revoke.Superseded "agent-a" cfg label := by
    simp only [Bool.and_eq_true] at both
    exact ⟨soundSteps_of both.1, stays_of_quiet both.2 _⟩
  exact ⟨changed, responded, last, call, keys, key, by decide +kernel,
    ⟨before, choice, thread, run.mono fun _ _ => soundSteps_of, soundSteps_of meets, rest⟩,
    completes.mono still, answersOk_of ok, later.mono still, by omega, at_call, answered, found⟩

end Meetup

end Concurrent

end Payknot.AgentKeys
