import Payknot.RuntimeHistory
import Payknot.Agents
import Mathlib.Data.List.Nodup

/-! How often a login nonce is good for a token. It is looked up by one statement and
marked used by a later one, with the signature checked in between; between the two the
nonce reads as unused to everybody else. -/
namespace Payknot.AgentRuntime
open GoText Interleaving Machine

variable {e : Environment} {nonce : String} {cfg after : Service} {label : ServiceLabel}

/-- The request has found the nonce unused and may still come to mark it. -/
def Checking (nonce : String) (thread : ServiceThread) : Prop :=
  (∃ agentPubkey, SawUnused thread.log agentPubkey nonce) ∧
    thread.program.May fun op => ∃ agentPubkey, op = .sql (.markNonceUsed agentPubkey nonce)

/-- The nonce is looked up while no other request is checking it, and marking it does
not fail. -/
def Exclusive (nonce : String) (cfg : Service) (label : ServiceLabel) : Prop :=
  ∀ index choice thread agentPubkey, label = .step index choice → cfg.threads[index]? = some thread →
    (thread.Issues (.sql (.selectNonce agentPubkey nonce)) →
      Others cfg index fun other => ¬ Checking nonce other) ∧
    (thread.Issues (.sql (.markNonceUsed agentPubkey nonce)) → choice.fault = none)

/-- The request presents the nonce and has opened a session with it. -/
def OpensSession (nonce : String) (thread : ServiceThread) : Prop :=
  (∃ agentPubkey, thread.request.Presents agentPubkey nonce) ∧
    ∃ id agentPubkey jti expiresAt,
      thread.log.Saw (.sql (.insertAgentSession id agentPubkey jti expiresAt)) (.ok ())

def Holding (nonce : String) (thread : ServiceThread) : Prop :=
  (∃ agentPubkey, SawUnused thread.log agentPubkey nonce) ∧
    ((thread.program.May fun op => ∃ agentPubkey, op = .sql (.markNonceUsed agentPubkey nonce)) ∨
      Marked thread.log nonce)

section Effects
variable {choice : Choice} {op : Op} {w w' : World}

theorem exec_nonces {reply : Reply op} (executed : exec choice op w = some (reply, w')) :
    w'.nonces = w.nonces ∨
    (∃ row, (∀ old ∈ w.nonces, old.nonce ≠ row.nonce) ∧ w'.nonces = w.nonces ++ [row]) ∨
    (∃ agentPubkey marked, op = .sql (.markNonceUsed agentPubkey marked) ∧
      w'.nonces = markUsed agentPubkey marked w.now w.nonces) := by
  cases exec_effect executed with
  | nonce absent => exact .inr (.inl ⟨_, absent, rfl⟩)
  | marked agentPubkey nonce => exact .inr (.inr ⟨agentPubkey, nonce, rfl, rfl⟩)
  | unchanged | drawn | session | recorded | confirmed | failed => exact .inl rfl

-- A nonce that is found unused has an unused row.
theorem exec_selectNonce {agentPubkey : String} {expiresAt : Time}
    (executed : exec choice (.sql (.selectNonce agentPubkey nonce)) w =
      some (.ok (some ⟨expiresAt, none⟩), w')) :
    ∃ row ∈ w.nonces, row.agentPubkey = agentPubkey ∧ row.nonce = nonce ∧ row.usedAt = none := by
  rcases exec_sql executed with ⟨⟨_, failed⟩, _⟩ | ⟨value, same, _, ran⟩
  · cases failed
  · cases same
    simp only [runSql, Except.ok.injEq, Prod.mk.injEq, Option.map_eq_some_iff] at ran
    obtain ⟨⟨row, found, times⟩, _⟩ := ran
    have of_nonce := List.find?_some found
    simp only [decide_eq_true_eq] at of_nonce
    simp only [NonceTimes.mk.injEq] at times
    exact ⟨row, List.mem_of_find?_eq_some found, of_nonce.1, of_nonce.2, times.2⟩

end Effects

section Invariant

/-- At most one request holds the nonce, and once it has marked it the nonce is used. -/
structure Single (e : Environment) (nonce : String) (cfg : Service) : Prop where
  disciplined : Disciplined (Issues e) (fun _ => Ends) cfg
  unique : (cfg.world.nonces.map NonceRow.nonce).Nodup
  found : ∀ thread ∈ cfg.threads, ∀ agentPubkey, SawUnused thread.log agentPubkey nonce →
    ∃ row ∈ cfg.world.nonces, row.agentPubkey = agentPubkey ∧ row.nonce = nonce
  used : ∀ thread ∈ cfg.threads, Marked thread.log nonce →
    ∃ row ∈ cfg.world.nonces, row.nonce = nonce ∧ row.usedAt.isSome = true
  opened : ∀ thread ∈ cfg.threads, ∀ id agentPubkey jti expiresAt reply,
    thread.log.Saw (.sql (.insertAgentSession id agentPubkey jti expiresAt)) reply →
    ∃ presenter presented, thread.request.Presents presenter presented ∧
      SawUnused thread.log presenter presented ∧ Marked thread.log presented
  alone : ∀ (i j : Nat) (first second : ServiceThread), cfg.threads[i]? = some first →
    cfg.threads[j]? = some second → Holding nonce first → Holding nonce second → i = j

theorem SawUnused.mono {log later : Log Reply} {agentPubkey : String}
    (unused : SawUnused log agentPubkey nonce) (grown : log <:+ later) :
    SawUnused later agentPubkey nonce := by
  obtain ⟨expiresAt, saw⟩ := unused
  exact ⟨expiresAt, saw.mono grown⟩

theorem Marked.mono {log later : Log Reply} (marked : Marked log nonce) (grown : log <:+ later) :
    Marked later nonce := by
  obtain ⟨agentPubkey, reply, saw⟩ := marked
  exact ⟨agentPubkey, reply, saw.mono grown⟩

theorem markUsed_row (agentPubkey marked : String) (now : Time) {nonces : List NonceRow} {old : NonceRow}
    (member : old ∈ nonces) :
    ∃ row ∈ markUsed agentPubkey marked now nonces, row.agentPubkey = old.agentPubkey ∧
      row.nonce = old.nonce ∧ (old.usedAt.isSome = true → row.usedAt.isSome = true) ∧
      (old.agentPubkey = agentPubkey → old.nonce = marked → row.usedAt.isSome = true) := by
  refine ⟨_, List.mem_map_of_mem member, ?_⟩
  split
  · exact ⟨rfl, rfl, fun _ => rfl, fun _ _ => rfl⟩
  · next other => exact ⟨rfl, rfl, id, fun same of_nonce => absurd ⟨same, of_nonce⟩ other⟩

theorem nonce_row_next (stepped : (machine e).next cfg label = some after) {old : NonceRow}
    (member : old ∈ cfg.world.nonces) :
    ∃ row ∈ after.world.nonces, row.agentPubkey = old.agentPubkey ∧ row.nonce = old.nonce ∧
      (old.usedAt.isSome = true → row.usedAt.isSome = true) := by
  rcases next_cases stepped with ⟨_, _, rfl⟩ | ⟨_, _, _, occurred, rfl⟩ |
    ⟨index, choice, thread, op, rest, reply, world, _, at_index, program, executed, rfl⟩
  · exact ⟨old, member, rfl, rfl, id⟩
  · cases occurred
    exact ⟨old, member, rfl, rfl, id⟩
  · rcases exec_nonces executed with same | ⟨row, _, same⟩ | ⟨agentPubkey, marked, _, same⟩
    · rw [same]
      exact ⟨old, member, rfl, rfl, id⟩
    · rw [same]
      exact ⟨old, List.mem_append_left _ member, rfl, rfl, id⟩
    · rw [same]
      obtain ⟨row, later, named, of_nonce, used, _⟩ := markUsed_row agentPubkey marked cfg.world.now member
      exact ⟨row, later, named, of_nonce, used⟩

theorem unique_next (unique : (cfg.world.nonces.map NonceRow.nonce).Nodup)
    (stepped : (machine e).next cfg label = some after) :
    (after.world.nonces.map NonceRow.nonce).Nodup := by
  rcases next_cases stepped with ⟨_, _, rfl⟩ | ⟨_, _, _, occurred, rfl⟩ |
    ⟨index, choice, thread, op, rest, reply, world, _, at_index, program, executed, rfl⟩
  · exact unique
  · cases occurred
    exact unique
  · rcases exec_nonces executed with same | ⟨row, fresh, same⟩ | ⟨agentPubkey, marked, _, same⟩
    · rw [same]
      exact unique
    · rw [same, List.map_append, List.nodup_append]
      refine ⟨unique, by simp, ?_⟩
      intro first among second only equal
      obtain ⟨old, member, rfl⟩ := List.mem_map.mp among
      simp only [List.map_cons, List.map_nil, List.mem_singleton] at only
      exact fresh old member (equal.trans only)
    · have names : (markUsed agentPubkey marked cfg.world.now cfg.world.nonces).map NonceRow.nonce =
          cfg.world.nonces.map NonceRow.nonce := by
        rw [markUsed, List.map_map]
        apply List.map_congr_left
        intro row _
        simp only [Function.comp_apply]
        split <;> rfl
      rw [same, names]
      exact unique

/-- Whoever holds the nonce after a step held it before, or has just found it unused. -/
theorem holding_before (stepped : (machine e).next cfg label = some after) {index : Nat}
    {current : ServiceThread} (at_index : after.threads[index]? = some current)
    (holding : Holding nonce current) :
    (∃ thread, cfg.threads[index]? = some thread ∧ Holding nonce thread) ∨
      ∃ thread choice agentPubkey expiresAt, label = .step index choice ∧
        cfg.threads[index]? = some thread ∧ thread.Issues (.sql (.selectNonce agentPubkey nonce)) ∧
        exec choice (.sql (.selectNonce agentPubkey nonce)) cfg.world =
          some (.ok (some ⟨expiresAt, none⟩), after.world) := by
  obtain ⟨⟨agentPubkey, expiresAt, saw⟩, still⟩ := holding
  rcases thread_after stepped at_index with old | ⟨request, _, rfl, _⟩ |
    ⟨choice, thread, op, rest, reply, same, before, program, executed, rfl⟩
  · exact .inl ⟨current, old, ⟨agentPubkey, expiresAt, saw⟩, still⟩
  · cases saw
  · rcases List.mem_cons.mp saw with here | earlier
    · cases here
      exact .inr ⟨thread, choice, agentPubkey, expiresAt, same, before, ⟨rest, program⟩, executed⟩
    · refine .inl ⟨thread, before, ⟨agentPubkey, expiresAt, earlier⟩, ?_⟩
      rcases still with may | ⟨marker, answer, saw⟩
      · refine .inl ?_
        rw [program]
        exact .inr ⟨reply, may⟩
      · rcases List.mem_cons.mp saw with here | marked
        · cases here
          refine .inl ?_
          rw [program]
          exact .inl ⟨marker, rfl⟩
        · exact .inr ⟨marker, answer, marked⟩

-- A request that finds the nonce unused is the only one that holds it.
theorem found_alone (single : Single e nonce cfg) (exclusive : Exclusive nonce cfg label) {i j : Nat}
    {thread other : ServiceThread} {choice : Choice} {agentPubkey : String} {expiresAt : Time}
    {w : World} (step : label = .step i choice) (at_i : cfg.threads[i]? = some thread)
    (selects : thread.Issues (.sql (.selectNonce agentPubkey nonce)))
    (executed : exec choice (.sql (.selectNonce agentPubkey nonce)) cfg.world =
      some (.ok (some ⟨expiresAt, none⟩), w))
    (elsewhere : j ≠ i) (at_j : cfg.threads[j]? = some other) : ¬ Holding nonce other := by
  rintro ⟨unused, may | marked⟩
  · exact (exclusive i choice thread agentPubkey step at_i).1 selects j other elsewhere at_j ⟨unused, may⟩
  · obtain ⟨row, member, of_nonce, used⟩ := single.used other (List.mem_of_getElem? at_j) marked
    obtain ⟨free, among, _, of_free, not_used⟩ := exec_selectNonce executed
    have same := List.inj_on_of_nodup_map single.unique member among (of_nonce.trans of_free.symm)
    rw [same, not_used] at used
    cases used

theorem single_next (single : Single e nonce cfg) (exclusive : Exclusive nonce cfg label)
    (stepped : (machine e).next cfg label = some after) : Single e nonce after := by
  constructor
  · exact disciplined_next along_handler single.disciplined stepped
  · exact unique_next single.unique stepped
  · intro current member agentPubkey ⟨expiresAt, saw⟩
    obtain ⟨index, at_index⟩ := List.mem_iff_getElem?.mp member
    have before : ∃ row ∈ cfg.world.nonces, row.agentPubkey = agentPubkey ∧ row.nonce = nonce := by
      rcases saw_after stepped at_index saw with ⟨thread, old, _, saw⟩ |
        ⟨choice, thread, rest, _, _, _, executed, _⟩
      · exact single.found thread (List.mem_of_getElem? old) agentPubkey ⟨expiresAt, saw⟩
      · obtain ⟨row, inside, named, of_nonce, _⟩ := exec_selectNonce executed
        exact ⟨row, inside, named, of_nonce⟩
    obtain ⟨old, inside, named, of_nonce⟩ := before
    obtain ⟨row, later, same, same_nonce, _⟩ := nonce_row_next stepped inside
    exact ⟨row, later, same.trans named, same_nonce.trans of_nonce⟩
  · rintro current member ⟨marker, reply, saw⟩
    obtain ⟨index, at_index⟩ := List.mem_iff_getElem?.mp member
    rcases saw_after stepped at_index saw with ⟨thread, old, _, saw⟩ |
      ⟨choice, thread, rest, step, at_cfg, program, executed, _⟩
    · obtain ⟨before, inside, of_nonce, used⟩ :=
        single.used thread (List.mem_of_getElem? old) ⟨marker, reply, saw⟩
      obtain ⟨row, later, _, same_nonce, still⟩ := nonce_row_next stepped inside
      exact ⟨row, later, same_nonce.trans of_nonce, still used⟩
    · -- The marking succeeds, and its row is there because the nonce had been found.
      have present := List.mem_of_getElem? at_cfg
      obtain ⟨unused, _⟩ := single.disciplined.issues present ⟨rest, program⟩
      obtain ⟨before, inside, named, of_nonce⟩ := single.found thread present marker unused
      have sound := (exclusive index choice thread marker step at_cfg).2 ⟨rest, program⟩
      change exec choice (.sql (.markNonceUsed marker nonce)) cfg.world = _ at executed
      simp only [exec, sound, runSql, Option.some.injEq] at executed
      have written : _ = after.world := congrArg Prod.snd executed
      rw [← written]
      obtain ⟨row, later, _, same_nonce, _, used⟩ := markUsed_row marker nonce cfg.world.now inside
      exact ⟨row, later, same_nonce.trans of_nonce, used named of_nonce⟩
  · intro current member id agentPubkey jti expiresAt reply saw
    obtain ⟨index, at_index⟩ := List.mem_iff_getElem?.mp member
    rcases thread_after stepped at_index with old | ⟨request, _, rfl, _⟩ |
      ⟨choice, thread, op, rest, answered, _, at_cfg, program, executed, rfl⟩
    · exact single.opened current (List.mem_of_getElem? old) id agentPubkey jti expiresAt reply saw
    · cases saw
    · have present := List.mem_of_getElem? at_cfg
      have grown : thread.log <:+ (thread.resumed op answered rest).log := List.suffix_cons _ _
      have earlier : ∃ presenter presented, thread.request.Presents presenter presented ∧
          SawUnused thread.log presenter presented ∧ Marked thread.log presented := by
        rcases List.mem_cons.mp saw with here | earlier
        · cases here
          exact single.disciplined.issues present ⟨rest, program⟩
        · exact single.opened thread present id agentPubkey jti expiresAt reply earlier
      obtain ⟨presenter, presented, presents, unused, marked⟩ := earlier
      exact ⟨presenter, presented, presents, unused.mono grown, marked.mono grown⟩
  · intro i j first second at_i at_j holds_first holds_second
    by_contra different
    rcases holding_before stepped at_i holds_first with ⟨before, old_i, held_i⟩ |
      ⟨thread, choice, agentPubkey, expiresAt, step, old_i, selects, executed⟩
    · rcases holding_before stepped at_j holds_second with ⟨other, old_j, held_j⟩ |
        ⟨thread, choice, agentPubkey, expiresAt, step, old_j, selects, executed⟩
      · exact different (single.alone i j before other old_i old_j held_i held_j)
      · exact found_alone single exclusive step old_j selects executed different old_i held_i
    · rcases holding_before stepped at_j holds_second with ⟨other, old_j, held_j⟩ |
        ⟨_, _, _, _, step', _, _, _⟩
      · exact found_alone single exclusive step old_i selects executed (Ne.symm different) old_j held_j
      · rw [step] at step'
        cases step'
        exact different rfl

end Invariant

structure Fresh (cfg : Service) : Prop where
  threads : cfg.threads = []
  unique : (cfg.world.nonces.map NonceRow.nonce).Nodup

/-- Any interleaving of any requests: as long as the nonce is looked up by one request
at a time, and marking it does not fail, at most one request opens a session with it. -/
theorem nonce_buys_one_token {init last : Service} {i j : Nat} {first second : ServiceThread}
    (fresh : Fresh init) (run : (machine e).Reaches (Exclusive nonce) init last)
    (at_i : last.threads[i]? = some first) (at_j : last.threads[j]? = some second)
    (opens : OpensSession nonce first) (opens' : OpensSession nonce second) : i = j := by
  have start : Single e nonce init := by
    have nobody : ∀ thread, thread ∉ init.threads := by simp [fresh.threads]
    constructor
    · exact fun thread member => absurd member (nobody thread)
    · exact fresh.unique
    · exact fun thread member => absurd member (nobody thread)
    · exact fun thread member => absurd member (nobody thread)
    · exact fun thread member => absurd member (nobody thread)
    · exact fun i j thread _ at_i => absurd (List.mem_of_getElem? at_i) (nobody thread)
  have single := run.invariant (Single e nonce) start
    fun _ _ _ held exclusive stepped => single_next held exclusive stepped
  have holding {k : Nat} {thread : ServiceThread} (at_k : last.threads[k]? = some thread)
      (opens : OpensSession nonce thread) : Holding nonce thread := by
    obtain ⟨⟨_, _, _, request, _, of_nonce⟩, id, agentPubkey, jti, expiresAt, saw⟩ := opens
    obtain ⟨presenter, presented, ⟨_, _, same, _, of_presented⟩, unused, marked⟩ :=
      single.opened thread (List.mem_of_getElem? at_k) id agentPubkey jti expiresAt _ saw
    rw [request] at same
    cases same
    rw [of_nonce, ← of_presented]
    exact ⟨⟨presenter, unused⟩, .inr marked⟩
  exact single.alone i j first second at_i at_j (holding at_i opens) (holding at_j opens')

section Meetup
open Agents

/-- The statement is alone: it does not fail, and all other requests have ended. -/
def alone (cfg : Service) (label : ServiceLabel) : Bool :=
  match label with
  | .step index choice => choice.fault.isNone &&
      cfg.threads.zipIdx.all fun other => other.2 = index || other.1.program.finished
  | _ => true

theorem exclusive_of_alone (is_alone : alone cfg label = true) : Exclusive nonce cfg label := by
  rintro index choice thread agentPubkey rfl _
  simp only [alone, Bool.and_eq_true, Option.isNone_iff_eq_none, List.all_eq_true] at is_alone
  obtain ⟨sound, others⟩ := is_alone
  refine ⟨fun _ j other elsewhere at_j ⟨_, may⟩ => ?_, fun _ => sound⟩
  have ended := others (other, j) (List.mem_zipIdx_iff_getElem?.mpr at_j)
  simp only [elsewhere, decide_false, Bool.false_or] at ended
  exact Program.May.of_finished ended may

def opensSession (cfg : Service) (index : Nat) : Bool :=
  match cfg.threads[index]? with
  | some ⟨.authToken "POST" (some body), log, .ret (.token _ _ _ _)⟩ =>
      body.nonce = loginNonce && log.any fun
        | ⟨.sql (.insertAgentSession _ _ _ _), .ok _⟩ => true
        | _ => false
  | _ => false

theorem opensSession_of {index : Nat} (opens : opensSession cfg index = true) :
    ∃ thread, cfg.threads[index]? = some thread ∧ OpensSession (trimSpace loginNonce) thread ∧
      ∃ token agentID scope signed, thread.program = .ret (.token token agentID scope signed) := by
  unfold opensSession at opens
  split at opens
  · next body log _ _ _ _ found =>
    simp only [Bool.and_eq_true, decide_eq_true_eq, List.any_eq_true] at opens
    obtain ⟨of_nonce, entry, member, inserted⟩ := opens
    split at inserted
    · exact ⟨_, found, ⟨⟨_, _, body, rfl, rfl, by rw [of_nonce]⟩, _, _, _, _, member⟩, _, _, _, _, rfl⟩
    · cases inserted
  · cases opens

def issued : List ServiceLabel :=
  [.arrive (.authNonce "GET" agentPubkey), random loginNonce 0] ++ steps 0 2

def redeem (index : Nat) (jti id : String) : List ServiceLabel :=
  steps index 1 ++ random jti index :: steps index 2 ++ random id index :: steps index 1

theorem opening_fresh : Fresh opening := ⟨rfl, by simp [opening]⟩

/-- One login after another: the second is refused, by the general result. -/
theorem nonce_buys_one_token_meetup : ∃ (last : Service) (first second : ServiceThread),
    last.threads[1]? = some first ∧ last.threads[2]? = some second ∧
    OpensSession (trimSpace loginNonce) first ∧ ¬ OpensSession (trimSpace loginNonce) second := by
  obtain ⟨last, run, done⟩ := run_meets (machine environment) alone
    (issued ++ .arrive login :: steps 1 2 ++ redeem 1 sessionClaims.jti "0b0f5a3e-2d41-4c55-9e0a-7f1d2c3b4a59" ++
      .arrive login :: steps 2 1) opening
    (fun last => opensSession last 1 && last.threads[2]?.isSome) (by decide +kernel)
  simp only [Bool.and_eq_true] at done
  obtain ⟨first, at_one, opens, _⟩ := opensSession_of done.1
  obtain ⟨second, at_two⟩ := Option.isSome_iff_exists.mp done.2
  refine ⟨last, first, second, at_one, at_two, opens, fun opens' => ?_⟩
  have same := nonce_buys_one_token opening_fresh (run.mono fun _ _ => exclusive_of_alone) at_one at_two
    opens opens'
  omega

/-- Two logins look the nonce up before either marks it: both get a token. -/
theorem nonce_buys_two_tokens : ∃ (last : Service) (first second : ServiceThread),
    Fresh opening ∧ (machine environment).Reaches anyStep opening last ∧
    last.threads[1]? = some first ∧ last.threads[2]? = some second ∧
    OpensSession (trimSpace loginNonce) first ∧ OpensSession (trimSpace loginNonce) second ∧
    (∃ token agentID scope signed, first.program = .ret (.token token agentID scope signed)) ∧
    (∃ token agentID scope signed, second.program = .ret (.token token agentID scope signed)) := by
  obtain ⟨last, run, done⟩ := run_meets (machine environment) (fun _ _ => true)
    (issued ++ [.arrive login, .arrive login] ++ steps 1 2 ++ steps 2 2 ++
      redeem 1 sessionClaims.jti "0b0f5a3e-2d41-4c55-9e0a-7f1d2c3b4a59" ++ redeem 2 "c4b5a697-8879-4f60-8e1d-2c3b4a5f6e7d" "1d2e3f40-5162-4738-8495-a6b7c8d9eaf0") opening
    (fun last => opensSession last 1 && opensSession last 2) (by decide +kernel)
  simp only [Bool.and_eq_true] at done
  obtain ⟨first, at_one, opens, answered⟩ := opensSession_of done.1
  obtain ⟨second, at_two, opens', answered'⟩ := opensSession_of done.2
  exact ⟨last, first, second, opening_fresh, run.any, at_one, at_two, opens, opens', answered, answered'⟩

end Meetup

end Payknot.AgentRuntime
