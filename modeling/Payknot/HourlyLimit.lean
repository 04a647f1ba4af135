import Payknot.Retries
import Mathlib.Algebra.Order.Ring.Int

/-! The hourly limit under concurrency. The count and the confirmation are separate
statements, and a row is invisible to the count until it is confirmed: a request that has
been counted and not ended takes a place that nothing keeps for it. -/
namespace Payknot.AgentRuntime
open GoText Interleaving Machine

section Counting
variable {α ι : Type} [DecidableEq ι]

-- Replacing one element moves a count by its own share.
theorem countP_set_at {p : α → Bool} {l : List α} {i : Nat} {x : α} (at_index : l[i]? = some x) (y : α) :
    (l.set i y).countP p + (p x).toNat = l.countP p + (p y).toNat := by
  obtain ⟨inside, same⟩ := List.getElem?_eq_some_iff.mp at_index
  have positive : p x = true → 0 < l.countP p :=
    fun holds => List.countP_pos_iff.mpr ⟨x, List.mem_of_getElem? at_index, holds⟩
  rw [List.countP_set inside, same]
  cases hx : p x <;> cases hy : p y <;> simp only [hx, forall_const, Bool.toNat_true, Bool.toNat_false] at * <;>
    simp <;> omega

variable {key : α → ι} {update : α → α} {p : α → Bool} {k : ι} {rows : List α}

theorem countP_update_le (dead : ∀ row ∈ rows, key row = k → p (update row) = true → p row = true) :
    (rows.map fun row => if key row = k then update row else row).countP p ≤ rows.countP p := by
  rw [List.countP_map]
  apply List.countP_mono_left
  intro row member holds
  simp only [Function.comp_apply] at holds
  split at holds
  · next named => exact dead row member named holds
  · exact holds

-- An update by a unique key adds at most one to a count.
theorem countP_update_succ (distinct : (rows.map key).Nodup) :
    (rows.map fun row => if key row = k then update row else row).countP p ≤ rows.countP p + 1 := by
  induction rows with
  | nil => simp
  | cons row rest ih =>
      rw [List.map_cons, List.nodup_cons] at distinct
      rw [List.map_cons, List.countP_cons, List.countP_cons]
      by_cases named : key row = k
      · have others : (rest.map fun row => if key row = k then update row else row).countP p ≤ rest.countP p := by
          apply countP_update_le
          intro other member same
          exact absurd (List.mem_map.mpr ⟨other, member, same.trans named.symm⟩) distinct.1
        split <;> split <;> omega
      · have rest_count := ih distinct.2
        rw [if_neg named]
        omega

end Counting

variable {e : Environment} {cfg after : Service} {label : ServiceLabel} {agentPubkey : String} {limit : Nat}

def IntentRow.spent (agentPubkey : String) (now : Time) (row : IntentRow) : Bool :=
  row.agentPubkey = agentPubkey && (row.createdAt > now - hour && row.status = .confirmed)

def World.spent (w : World) (agentPubkey : String) : Nat := w.intents.countP (·.spent agentPubkey w.now)

def Request.settles : Request → Bool
  | .createCheckout _ => true
  | _ => false

/-- The settlement request has been counted for the agent, and has neither confirmed nor ended. -/
def inFlight (agentPubkey : String) (thread : ServiceThread) : Bool :=
  thread.request.settles && (((thread.log.any fun
    | ⟨.sql (.countHour agent), _⟩ => agent = agentPubkey
    | _ => false) &&
  !thread.log.any fun
    | ⟨.sql (.confirmIntent _ _), _⟩ => true
    | _ => false) && !thread.program.finished)

/-- The limit is read without failing, unless the default is no larger; and where a count
is taken, it refuses, or there is room for the request and for all in flight. -/
structure Spaced (agentPubkey : String) (limit : Nat) (cfg : Service) (label : ServiceLabel) : Prop where
  read : ∀ index choice thread, label = .step index choice → cfg.threads[index]? = some thread →
    thread.Issues (.sql .selectHourlyLimit) → choice.fault = none ∨ 10 ≤ limit
  room : ∀ index choice thread, label = .step index choice → cfg.threads[index]? = some thread →
    thread.Issues (.sql (.countHour agentPubkey)) →
      choice.fault = none ∧ limit ≤ cfg.world.hourCount agentPubkey ∨
        cfg.world.hourCount agentPubkey + cfg.threads.countP (inFlight agentPubkey) < limit

theorem inFlight_iff {thread : ServiceThread} : inFlight agentPubkey thread = true ↔
    (∃ r, thread.request = .createCheckout r) ∧
    (∃ count, thread.log.Saw (.sql (.countHour agentPubkey)) count) ∧ (∀ entry ∈ thread.log, ¬ isConfirm entry) ∧
      thread.program.finished = false := by
  have settles : thread.request.settles = true ↔ ∃ r, thread.request = .createCheckout r := by
    cases thread.request <;> simp [Request.settles]
  have counted : (thread.log.any fun
        | ⟨.sql (.countHour agent), _⟩ => agent = agentPubkey
        | _ => false) = true ↔ ∃ count, thread.log.Saw (.sql (.countHour agentPubkey)) count := by
    rw [List.any_eq_true]
    constructor
    · rintro ⟨entry, member, counts⟩
      split at counts
      · rw [decide_eq_true_eq] at counts
        subst counts
        exact ⟨_, member⟩
      · cases counts
    · rintro ⟨count, saw⟩
      exact ⟨_, saw, by simp⟩
  have confirmed : (thread.log.any fun
        | ⟨.sql (.confirmIntent _ _), _⟩ => true
        | _ => false) = false ↔ ∀ entry ∈ thread.log, ¬ isConfirm entry := by
    rw [List.any_eq_false]
    apply forall_congr'
    intro entry
    apply imp_congr_right
    intro _
    unfold isConfirm
    split <;> simp
  rw [inFlight, Bool.and_eq_true, Bool.and_eq_true, Bool.and_eq_true, settles, counted, Bool.not_eq_true', confirmed, Bool.not_eq_true',
    and_assoc]

section Spending
variable {w w' : World}

theorem spent_le_hourCount : w.spent agentPubkey ≤ w.hourCount agentPubkey := by
  rw [World.spent, World.hourCount, ← List.countP_eq_length_filter]
  apply List.countP_mono_left
  intro row _ spent
  simp only [IntentRow.spent, Bool.and_eq_true, decide_eq_true_eq] at spent
  simp [IntentRow.counts, spent]

theorem spent_later {elapsed : Nat} :
    ({ w with now := w.now + elapsed } : World).spent agentPubkey ≤ w.spent agentPubkey := by
  apply List.countP_mono_left
  intro row _ spent
  simp only [IntentRow.spent, Bool.and_eq_true, decide_eq_true_eq] at spent ⊢
  obtain ⟨own, recent, confirmed⟩ := spent
  have window : w.now - hour ≤ w.now + elapsed - hour :=
    Int.sub_le_sub_right (Int.le_add_of_nonneg_right (Int.natCast_nonneg elapsed)) hour
  exact ⟨own, Int.lt_of_le_of_lt window recent, confirmed⟩

-- Only confirming a row of the agent adds to what is spent, and it adds one.
theorem Effect.spent_after {entry : Entry Reply} (effect : Effect w entry w') (agentPubkey : String)
    (keyed : Keyed w.intents) :
    w'.spent agentPubkey ≤ w.spent agentPubkey ∨
      w'.spent agentPubkey ≤ w.spent agentPubkey + 1 ∧ ∃ id txSignature,
        entry = ⟨.sql (.confirmIntent id txSignature), .ok ()⟩ ∧
          ∃ row ∈ w.intents, row.id = id ∧ row.agentPubkey = agentPubkey := by
  cases effect with
  | recorded =>
      left
      simp [World.spent, List.countP_append, IntentRow.spent, NewIntent.row]
  | confirmed id txSignature =>
      by_cases own : ∃ row ∈ w.intents, row.id = id ∧ row.agentPubkey = agentPubkey
      · exact .inr ⟨countP_update_succ keyed.ids, id, txSignature, rfl, own⟩
      · left
        apply countP_update_le
        intro row member named spent
        have agent := of_decide_eq_true (Bool.and_eq_true_iff.mp spent).1
        exact absurd ⟨row, member, named, agent⟩ own
  | failed id =>
      left
      apply countP_update_le
      intro row member named spent
      simp [IntentRow.spent] at spent
  | unchanged | drawn | nonce | marked | session => exact .inl (Nat.le_refl _)

end Spending

section Invariant

def World.hourlyLimit (w : World) : Int :=
  scannedLimit (.ok ((w.policies.find? (·.active)).map (·.hourlyTxLimit)))

/-- While requests are in flight, they and what is spent fit the limit, and no limit read is larger. -/
structure Metered (e : Environment) (agentPubkey : String) (limit : Nat) (cfg : Service) : Prop where
  phased : Phased e cfg
  policy : cfg.world.hourlyLimit = limit
  limits : ∀ thread ∈ cfg.threads, ∀ read, thread.log.Saw (.sql .selectHourlyLimit) read →
    scannedLimit read ≤ limit
  fits : 0 < cfg.threads.countP (inFlight agentPubkey) →
    cfg.world.spent agentPubkey + cfg.threads.countP (inFlight agentPubkey) ≤ limit

theorem next_policies (stepped : (machine e).next cfg label = some after) :
    after.world.policies = cfg.world.policies := by
  rcases next_cases stepped with ⟨_, _, rfl⟩ | ⟨_, _, _, occurred, rfl⟩ |
    ⟨_, _, _, _, _, _, world, _, _, _, executed, rfl⟩
  · rfl
  · cases occurred
    rfl
  · change world.policies = _
    cases exec_effect executed <;> rfl

theorem Metered.limits_next (metered : Metered e agentPubkey limit cfg)
    (spaced : Spaced agentPubkey limit cfg label) (stepped : (machine e).next cfg label = some after)
    {current : ServiceThread}
    (member : current ∈ after.threads) {read : Except Fault (Option Int)}
    (saw : current.log.Saw (.sql .selectHourlyLimit) read) : scannedLimit read ≤ limit := by
  obtain ⟨index, found⟩ := List.mem_iff_getElem?.mp member
  rcases saw_after stepped found saw with ⟨thread, old, _, saw⟩ |
    ⟨choice, thread, rest, step, at_index, program, executed, _⟩
  · exact metered.limits thread (List.mem_of_getElem? old) read saw
  · rcases exec_sql executed with ⟨⟨fault, failed⟩, _⟩ | ⟨value, rfl, _, ran⟩
    · subst failed
      rcases spaced.read index choice thread step at_index ⟨rest, program⟩ with sound | default
      · simp [machine, exec, sound, runSql] at executed
      · simp only [scannedLimit]
        omega
    · obtain ⟨same, _⟩ := Prod.mk.inj (Except.ok.inj ran)
      rw [← same]
      exact Int.le_of_eq metered.policy

-- A thread that comes to be in flight has just been counted, below the limit.
theorem counted_now (phased : Phased e after) (limits : ∀ thread ∈ after.threads, ∀ read,
      thread.log.Saw (.sql .selectHourlyLimit) read → scannedLimit read ≤ limit)
    {thread current : ServiceThread} {op : Op} {rest : Reply op → Program Reply Answer} {reply : Reply op}
    (program : thread.program = .call op rest) (member : current ∈ after.threads)
    (resumed : current = thread.resumed op reply rest) (flying : inFlight agentPubkey current = true)
    (grounded : inFlight agentPubkey thread = false) :
    ∃ count, (⟨op, reply⟩ : Entry Reply) = ⟨.sql (.countHour agentPubkey), count⟩ ∧
      (scannedCount count : Int) < limit := by
  obtain ⟨⟨r, request⟩, ⟨count, counted⟩, unconfirmed, unfinished⟩ := inFlight_iff.mp flying
  have log : current.log = ⟨op, reply⟩ :: thread.log := by rw [resumed]; rfl
  have now : (⟨op, reply⟩ : Entry Reply) = ⟨.sql (.countHour agentPubkey), count⟩ := by
    rw [log] at counted
    rcases List.mem_cons.mp counted with here | earlier
    · exact here.symm
    · have flying' : inFlight agentPubkey thread = true := by
        rw [inFlight_iff]
        refine ⟨⟨r, ?_⟩, ⟨count, earlier⟩, fun entry before => ?_, ?_⟩
        · rw [resumed] at request
          exact request
        · rw [log] at unconfirmed
          exact unconfirmed entry (List.mem_cons_of_mem _ before)
        · rw [program]
          rfl
      rw [flying'] at grounded
      cases grounded
  refine ⟨count, now, ?_⟩
  -- It goes on, so its count was below the limit it had read.
  cases following : current.program with
  | ret answer =>
      rw [following] at unfinished
      cases unfinished
  | call op' next =>
      rcases (phased.disciplined.issues member ⟨next, following⟩ r request).1 with untouched | ⟨agent, passed⟩
      · cases untouched _ counted
      · obtain ⟨read, count', saw, counted', below⟩ := passed
        cases phased.counts_once member request counted counted' trivial trivial
        have bound := limits current member read saw
        omega

-- A confirmation of a row of the agent is of a request in flight for it.
theorem Phased.confirms_flying (phased : Phased e cfg) {thread : ServiceThread} (member : thread ∈ cfg.threads)
    {id txSignature : String} (issues : thread.Issues (.sql (.confirmIntent id txSignature))) {row : IntentRow}
    (present : row ∈ cfg.world.intents) (named : row.id = id) : inFlight row.agentPubkey thread = true := by
  obtain ⟨intent, reply, of_id, saw⟩ := phased.settled.disciplined.issues member issues
  have drew : thread.log.Saw .newUUID row.id := by
    rw [named, ← of_id]
    exact (phased.inserted member saw).1
  obtain ⟨stored, columns, stores⟩ := phased.settled.recorded thread member row present drew
  obtain ⟨_, r, earlier, request, grown, ⟨_, count, _, counted, _⟩, _⟩ := phased.inserted member stores
  obtain ⟨rest, program⟩ := issues
  rw [inFlight_iff, ← columns.agentPubkey]
  refine ⟨⟨r, request⟩, ⟨count, counted.mono grown⟩, ?_, by rw [program]; rfl⟩
  exact (phased.disciplined.issues member ⟨rest, program⟩ r request).2.2.1

theorem Metered.fits_next (metered : Metered e agentPubkey limit cfg)
    (spaced : Spaced agentPubkey limit cfg label) (phased : Phased e after)
    (limits : ∀ thread ∈ after.threads, ∀ read, thread.log.Saw (.sql .selectHourlyLimit) read →
      scannedLimit read ≤ limit) (stepped : (machine e).next cfg label = some after)
    (some_fly : 0 < after.threads.countP (inFlight agentPubkey)) :
    after.world.spent agentPubkey + after.threads.countP (inFlight agentPubkey) ≤ limit := by
  have fits := metered.fits
  rcases next_cases stepped with ⟨request, _, rfl⟩ | ⟨_, _, _, occurred, rfl⟩ |
    ⟨index, choice, thread, op, rest, reply, world, step, at_index, program, executed, rfl⟩
  · have grounded : inFlight agentPubkey (⟨request, [], (machine e).handler request⟩ : ServiceThread) = false := by
      simp [inFlight]
    have counts : (cfg.threads ++ [(⟨request, [], (machine e).handler request⟩ : ServiceThread)]).countP
        (inFlight agentPubkey) = cfg.threads.countP (inFlight agentPubkey) := by
      rw [List.countP_append, List.countP_singleton, grounded]
      rfl
    change cfg.world.spent agentPubkey + (cfg.threads ++ [_]).countP (inFlight agentPubkey) ≤ limit
    rw [counts]
    exact fits (counts ▸ some_fly)
  · cases occurred
    exact Nat.le_trans (Nat.add_le_add_right spent_later _) (fits some_fly)
  · have inside := (List.getElem?_eq_some_iff.mp at_index).1
    have moved := countP_set_at (p := inFlight agentPubkey) at_index (thread.resumed op reply rest)
    have member : thread.resumed op reply rest ∈ cfg.threads.set index (thread.resumed op reply rest) :=
      List.mem_of_getElem? (List.getElem?_set_self inside)
    simp only at limits phased some_fly ⊢
    rcases (exec_effect executed).spent_after agentPubkey metered.phased.settled.keyed with
      kept | ⟨added, id, txSignature, entry, row, present, named, agent⟩
    · cases flying : inFlight agentPubkey (thread.resumed op reply rest) with
      | false =>
          rw [flying] at moved
          simp only [Bool.toNat_false] at moved
          omega
      | true =>
          cases grounded : inFlight agentPubkey thread with
          | true =>
              rw [flying, grounded] at moved
              omega
          | false =>
              rw [flying, grounded] at moved
              obtain ⟨count, entry, below⟩ := counted_now phased limits program member rfl flying grounded
              cases entry
              have spent := @spent_le_hourCount agentPubkey cfg.world
              have room : cfg.world.hourCount agentPubkey + cfg.threads.countP (inFlight agentPubkey) < limit := by
                rcases spaced.room index choice thread step at_index ⟨rest, program⟩ with ⟨sound, reached⟩ | room
                · have counted : count = .ok (cfg.world.hourCount agentPubkey) := by
                    simp only [machine, exec, sound, runSql, Option.some.injEq, Prod.mk.injEq] at executed
                    exact executed.1.symm
                  rw [counted] at below
                  simp only [scannedCount] at below
                  omega
                · exact room
              simp only [Bool.toNat_true, Bool.toNat_false] at moved
              omega
    -- The confirmation spends the place the request has held since its count.
    · cases entry
      have flying : inFlight agentPubkey thread = true :=
        agent ▸ metered.phased.confirms_flying (List.mem_of_getElem? at_index) ⟨rest, program⟩ present named
      have landed : inFlight agentPubkey (thread.resumed (.sql (.confirmIntent id txSignature)) (.ok ()) rest) =
          false := by
        rw [Bool.eq_false_iff, ne_eq, inFlight_iff]
        rintro ⟨_, _, unconfirmed, _⟩
        exact unconfirmed _ List.mem_cons_self trivial
      rw [flying, landed] at moved
      simp only [Bool.toNat_true, Bool.toNat_false] at moved
      omega

theorem Metered.next (metered : Metered e agentPubkey limit cfg) (spaced : Spaced agentPubkey limit cfg label)
    (stepped : (machine e).next cfg label = some after) : Metered e agentPubkey limit after := by
  have phased := metered.phased.next stepped
  have limits := fun thread (member : thread ∈ after.threads) read =>
    @Metered.limits_next e cfg after label agentPubkey limit metered spaced stepped thread member read
  constructor
  · exact phased
  · rw [World.hourlyLimit, next_policies stepped]
    exact metered.policy
  · exact limits
  · exact metered.fits_next spaced phased limits stepped

theorem Unserved.metered (unserved : Unserved cfg) (policy : cfg.world.hourlyLimit = limit) :
    Metered e agentPubkey limit cfg := by
  constructor
  · exact unserved.phased
  · exact policy
  · intro thread member
    rw [unserved.threads] at member
    cases member
  · intro some_fly
    rw [unserved.threads] at some_fly
    cases some_fly

theorem Metered.spent_succ (metered : Metered e agentPubkey limit cfg)
    (stepped : (machine e).next cfg label = some after) :
    after.world.spent agentPubkey ≤ cfg.world.spent agentPubkey + 1 := by
  rcases next_cases stepped with ⟨request, _, rfl⟩ | ⟨_, _, _, occurred, rfl⟩ |
    ⟨index, choice, thread, op, rest, reply, world, _, at_index, program, executed, rfl⟩
  · exact Nat.le_succ _
  · cases occurred
    exact spent_later.trans (Nat.le_succ _)
  · rcases (exec_effect executed).spent_after agentPubkey metered.phased.settled.keyed with kept | ⟨added, _⟩
    · exact kept.trans (Nat.le_succ _)
    · exact added

-- Where a request is in flight, there is room for what the next step spends.
theorem Metered.spent_flying (metered : Metered e agentPubkey limit cfg)
    (stepped : (machine e).next cfg label = some after) {thread : ServiceThread} (member : thread ∈ cfg.threads)
    (flying : inFlight agentPubkey thread = true) : after.world.spent agentPubkey ≤ limit := by
  have some_fly : 0 < cfg.threads.countP (inFlight agentPubkey) := List.countP_pos_iff.mpr ⟨thread, member, flying⟩
  have fits := metered.fits some_fly
  have succ := metered.spent_succ stepped
  omega

-- Only a request in flight adds to what is spent.
theorem Metered.within_next (metered : Metered e agentPubkey limit cfg)
    (stepped : (machine e).next cfg label = some after) (within : cfg.world.spent agentPubkey ≤ limit) :
    after.world.spent agentPubkey ≤ limit := by
  have later {thread : ServiceThread} (member : thread ∈ cfg.threads) (flying : inFlight agentPubkey thread = true) :=
    metered.spent_flying stepped member flying
  rcases next_cases stepped with ⟨request, _, rfl⟩ | ⟨_, _, _, occurred, rfl⟩ |
    ⟨index, choice, thread, op, rest, reply, world, _, at_index, program, executed, rfl⟩
  · exact within
  · cases occurred
    exact spent_later.trans within
  · have member := List.mem_of_getElem? at_index
    rcases (exec_effect executed).spent_after agentPubkey metered.phased.settled.keyed with
      kept | ⟨_, id, txSignature, entry, row, present, named, agent⟩
    · exact kept.trans within
    · cases entry
      exact later member (agent ▸ metered.phased.confirms_flying member ⟨rest, program⟩ present named)

end Invariant

/-- Any interleaving in which every count that lets a request pass leaves room for the
requests in flight: the agent's confirmed intents of the preceding hour never exceed the
limit of the active policy. -/
theorem hourly_limit_kept {init last : Service} (unserved : Unserved init) (positive : 0 < limit)
    (policy : (init.world.policies.find? (·.active)).map (·.hourlyTxLimit) = some (limit : Int))
    (within : init.world.spent agentPubkey ≤ limit)
    (run : (machine e).Reaches (Spaced agentPubkey limit) init last) : last.world.spent agentPubkey ≤ limit := by
  have read : init.world.hourlyLimit = limit := by
    rw [World.hourlyLimit, policy, scannedLimit, if_neg (by omega)]
  have held := run.invariant (fun cfg => Metered e agentPubkey limit cfg ∧ cfg.world.spent agentPubkey ≤ limit)
    ⟨unserved.metered read, within⟩ fun _ _ _ held spaced stepped =>
      ⟨held.1.next spaced stepped, held.1.within_next stepped held.2⟩
  exact held.2

section Meetup
open Agents

def spaced (limit : Nat) (cfg : Service) (label : ServiceLabel) : Bool :=
  match label, performed cfg label with
  | .step _ choice, some (.sql .selectHourlyLimit) => choice.fault.isNone
  | .step _ choice, some (.sql (.countHour agent)) =>
      (choice.fault.isNone && limit ≤ cfg.world.hourCount agent) ||
        cfg.world.hourCount agent + cfg.threads.countP (inFlight agent) < limit
  | _, _ => true

theorem spaced_free : FreeChecks (spaced limit) := by
  intro cfg index choice thread op at_index issues checks
  have performs : performed cfg (.step index choice : ServiceLabel) = some op :=
    Performs.performed ⟨⟨choice, rfl⟩, at_index, issues⟩
  simp only [spaced, performs]
  cases op with
  | sql statement => cases statement <;> first | rfl | cases checks
  | newUUID | randomNonce | now => rfl

theorem spaced_of (holds : spaced limit cfg label = true) : Spaced agentPubkey limit cfg label := by
  constructor
  · rintro index choice thread rfl at_index issues
    have performs : performed cfg (.step index choice : ServiceLabel) = some _ :=
      Performs.performed ⟨⟨choice, rfl⟩, at_index, issues⟩
    simp only [spaced, performs, Option.isNone_iff_eq_none] at holds
    exact .inl holds
  · rintro index choice thread rfl at_index issues
    have performs : performed cfg (.step index choice : ServiceLabel) = some _ :=
      Performs.performed ⟨⟨choice, rfl⟩, at_index, issues⟩
    simpa [spaced, performs] using holds

def hourly : Service := payingUnder ⟨500, 1, none, none, true⟩

def secondIntent : String := "4c6e8f02-3d5f-4b7c-8e9a-1f2d3b4a5c6e"
def secondTx : String := "5d7f9013-4e6a-4c8d-9fab-2a3e4c5b6d7f"

/-- One settlement after another: the second is refused, and the limit holds by the
general result. -/
theorem hourly_limit_kept_meetup : ∃ (last : Service) (thread refused : ServiceThread) (explorerURL text : String),
    last.threads[0]? = some thread ∧ thread.program = .ret (.settled (mockSignature firstTx) explorerURL) ∧
    last.threads[1]? = some refused ∧ refused.program = .ret (.error text 403) ∧
    last.world.spent Agents.agentPubkey ≤ 1 := by
  have ran : (course (spaced 1) [("", steps 0 2 ++ settling 0 firstIntent firstTx), ("", steps 1 2)] hourly).any
      (fun last => settledBy last 0 (mockSignature firstTx) && refusedAt last 1) = true := by decide +kernel
  obtain ⟨last, run, done⟩ := course_meets spaced_free ran
  rw [Bool.and_eq_true] at done
  obtain ⟨thread, explorerURL, at_zero, settled⟩ := settledBy_of done.1
  obtain ⟨refused, text, at_one, refusal⟩ := refusedAt_of done.2
  exact ⟨last, thread, refused, explorerURL, text, at_zero, settled, at_one, refusal,
    hourly_limit_kept (payingUnder_unserved _) Nat.one_pos (by decide) (by decide)
      (run.mono fun _ _ => spaced_of)⟩

/-- Two settlements are counted before either is confirmed: both pass a limit of one. -/
theorem hourly_limit_overrun : ∃ last : Service, Unserved hourly ∧
    (hourly.world.policies.find? (·.active)).map (·.hourlyTxLimit) = some 1 ∧
    hourly.world.spent Agents.agentPubkey = 0 ∧ (machine environment).Reaches anyStep hourly last ∧
    last.world.spent Agents.agentPubkey = 2 := by
  have ran : (course (fun _ _ => true) [("", steps 0 2),
      ("", steps 1 2 ++ settling 0 firstIntent firstTx ++ settling 1 secondIntent secondTx)] hourly).any
        (fun last => decide (last.world.spent Agents.agentPubkey = 2)) = true := by decide +kernel
  obtain ⟨last, run, done⟩ := course_meets (fun _ _ _ _ _ _ _ _ => rfl) ran
  exact ⟨last, payingUnder_unserved _, by decide, by decide, run.any, of_decide_eq_true done⟩

end Meetup

end Payknot.AgentRuntime
