import Payknot.Program
import Mathlib.Data.List.Basic

/-! Any number of programs served concurrently over one world. Each operation is
one atomic step; the choice attached to a step decides what the outside decides
(a failure, a random value). Events change the world between steps. A thread
keeps its request and its history, so a run's state records who saw what. -/
namespace Interleaving

variable {Op : Type} {Reply : Op → Type} {World Choice Event Request Answer : Type}

structure Machine {Op : Type} (Reply : Op → Type) (World Choice Event Request Answer : Type) where
  exec : Choice → (op : Op) → World → Option (Reply op × World)
  occur : Event → World → Option World
  handler : Request → Program Reply Answer

structure Thread {Op : Type} (Reply : Op → Type) (Request Answer : Type) where
  request : Request
  log : Log Reply
  program : Program Reply Answer

structure Config {Op : Type} (Reply : Op → Type) (World Request Answer : Type) where
  world : World
  threads : List (Thread Reply Request Answer)

inductive Label (Choice Event Request : Type) where
  | arrive (request : Request)
  | step (thread : Nat) (choice : Choice)
  | event (event : Event)

namespace Thread

def performed (thread : Thread Reply Request Answer) (op : Op) (reply : Reply op) : Prop :=
  thread.log.Saw op reply

/-- The thread is suspended right before `op`. -/
def Issues (thread : Thread Reply Request Answer) (op : Op) : Prop :=
  ∃ next, thread.program = .call op next

theorem not_issues {thread : Thread Reply Request Answer} (ended : thread.program.finished = true)
    (op : Op) : ¬ thread.Issues op := by
  rintro ⟨rest, program⟩
  rw [program] at ended
  cases ended

def resumed (thread : Thread Reply Request Answer) (op : Op) (reply : Reply op)
    (next : Reply op → Program Reply Answer) : Thread Reply Request Answer :=
  { thread with log := ⟨op, reply⟩ :: thread.log, program := next reply }

end Thread

namespace Machine
variable (M : Machine Reply World Choice Event Request Answer)

def next (cfg : Config Reply World Request Answer) :
    Label Choice Event Request → Option (Config Reply World Request Answer)
  | .arrive request =>
      some { cfg with threads := cfg.threads ++ [⟨request, [], M.handler request⟩] }
  | .step index choice =>
      match cfg.threads[index]? with
      | none => none
      | some thread =>
          match thread.program with
          | .ret _ => none
          | .call op rest =>
              match M.exec choice op cfg.world with
              | none => none
              | some (reply, world) =>
                  some ⟨world, cfg.threads.set index (thread.resumed op reply rest)⟩
  | .event event =>
      (M.occur event cfg.world).map fun world => { cfg with world := world }

/-- Runs all of whose steps meet `allowed`, a condition on the state before the
step and the step itself. -/
inductive Reaches (allowed : Config Reply World Request Answer → Label Choice Event Request → Prop) :
    Config Reply World Request Answer → Config Reply World Request Answer → Prop where
  | refl (cfg) : Reaches allowed cfg cfg
  | tail {first last after} (label : Label Choice Event Request) :
      Reaches allowed first last → allowed last label → M.next last label = some after →
      Reaches allowed first after

def idle (cfg : Config Reply World Request Answer) : Bool :=
  cfg.threads.all fun thread => thread.program.finished

/-- Complete requests one after another: arrivals and events wait for an idle system. -/
def oneAtATime (cfg : Config Reply World Request Answer) : Label Choice Event Request → Bool
  | .step _ _ => true
  | _ => idle cfg

/-- The step is the thread at `index` performing `op`. -/
def Performs (cfg : Config Reply World Request Answer) (label : Label Choice Event Request)
    (index : Nat) (thread : Thread Reply Request Answer) (op : Op) : Prop :=
  (∃ choice, label = .step index choice) ∧ cfg.threads[index]? = some thread ∧ thread.Issues op

def performed (cfg : Config Reply World Request Answer) : Label Choice Event Request → Option Op
  | .step index _ =>
      match cfg.threads[index]? with
      | some ⟨_, _, .call op _⟩ => some op
      | _ => none
  | _ => none

/-- Every thread but the one at `index` satisfies `quiet`. -/
def Others (cfg : Config Reply World Request Answer) (index : Nat)
    (quiet : Thread Reply Request Answer → Prop) : Prop :=
  ∀ j other, j ≠ index → cfg.threads[j]? = some other → quiet other

def anyStep (_ : Config Reply World Request Answer) (_ : Label Choice Event Request) : Prop := True

variable {M}
variable {allowed allowed' : Config Reply World Request Answer → Label Choice Event Request → Prop}
variable {cfg after : Config Reply World Request Answer}

theorem Reaches.trans {first middle last : Config Reply World Request Answer}
    (left : M.Reaches allowed first middle) (right : M.Reaches allowed middle last) :
    M.Reaches allowed first last := by
  induction right with
  | refl => exact left
  | tail label _ meets stepped ih => exact ih.tail label meets stepped

theorem Reaches.mono {first last : Config Reply World Request Answer}
    (run : M.Reaches allowed first last)
    (weaker : ∀ cfg label, allowed cfg label → allowed' cfg label) :
    M.Reaches allowed' first last := by
  induction run with
  | refl => exact .refl _
  | tail label _ meets stepped ih => exact ih.tail label (weaker _ _ meets) stepped

theorem Reaches.any {first last : Config Reply World Request Answer}
    (run : M.Reaches allowed first last) : M.Reaches anyStep first last :=
  run.mono fun _ _ _ => trivial

theorem Performs.performed {label : Label Choice Event Request} {index : Nat}
    {thread : Thread Reply Request Answer} {op : Op} (performs : Performs cfg label index thread op) :
    performed cfg label = some op := by
  obtain ⟨⟨choice, rfl⟩, at_index, rest, program⟩ := performs
  obtain ⟨request, log, _⟩ := thread
  cases program
  simp [Machine.performed, at_index]

/-- What holds at the start and survives every step that meets the condition
holds wherever the run gets. -/
theorem Reaches.invariant {first last : Config Reply World Request Answer}
    (run : M.Reaches allowed first last) (invariant : Config Reply World Request Answer → Prop)
    (start : invariant first)
    (keeps : ∀ cfg label after, invariant cfg → allowed cfg label →
      M.next cfg label = some after → invariant after) : invariant last := by
  induction run with
  | refl => exact start
  | tail label _ meets stepped ih => exact keeps _ label _ ih meets stepped

/-- Everything one step can be: a request arrives, the world changes by itself, or
one suspended thread performs the operation it was suspended at. -/
theorem next_cases {label : Label Choice Event Request} (stepped : M.next cfg label = some after) :
    (∃ request, label = .arrive request ∧
      after = { cfg with threads := cfg.threads ++ [⟨request, [], M.handler request⟩] }) ∨
    (∃ event world, label = .event event ∧ M.occur event cfg.world = some world ∧
      after = { cfg with world := world }) ∨
    (∃ index choice thread op rest reply world, label = .step index choice ∧
      cfg.threads[index]? = some thread ∧ thread.program = .call op rest ∧
      M.exec choice op cfg.world = some (reply, world) ∧
      after = ⟨world, cfg.threads.set index (thread.resumed op reply rest)⟩) := by
  cases label with
  | arrive request =>
      simp only [next, Option.some.injEq] at stepped
      exact .inl ⟨request, rfl, stepped.symm⟩
  | event event =>
      simp only [next, Option.map_eq_some_iff] at stepped
      obtain ⟨world, occurred, same⟩ := stepped
      exact .inr (.inl ⟨event, world, rfl, occurred, same.symm⟩)
  | step index choice =>
      simp only [next] at stepped
      cases found : cfg.threads[index]? with
      | none => simp [found] at stepped
      | some thread =>
          simp only [found] at stepped
          cases program : thread.program with
          | ret answer => simp [program] at stepped
          | call op rest =>
              simp only [program] at stepped
              cases executed : M.exec choice op cfg.world with
              | none => simp [executed] at stepped
              | some result =>
                  obtain ⟨reply, world⟩ := result
                  simp only [executed, Option.some.injEq] at stepped
                  exact .inr (.inr ⟨index, choice, thread, op, rest, reply, world, rfl, found,
                    program, executed, stepped.symm⟩)

/-- The threads after a step, by position: an old one untouched, the stepping one
resumed, or the new arrival at the end. -/
theorem thread_after {label : Label Choice Event Request} (stepped : M.next cfg label = some after)
    {index : Nat} {current : Thread Reply Request Answer}
    (found : after.threads[index]? = some current) :
    cfg.threads[index]? = some current ∨
    (∃ request, label = .arrive request ∧ current = ⟨request, [], M.handler request⟩ ∧
      cfg.threads[index]? = none) ∨
    (∃ choice thread op rest reply, label = .step index choice ∧
      cfg.threads[index]? = some thread ∧ thread.program = .call op rest ∧
      M.exec choice op cfg.world = some (reply, after.world) ∧
      current = thread.resumed op reply rest) := by
  rcases next_cases stepped with ⟨request, rfl, rfl⟩ | ⟨event, world, rfl, _, rfl⟩ |
    ⟨moved, choice, thread, op, rest, reply, world, rfl, at_moved, program, executed, rfl⟩
  · rcases Nat.lt_or_ge index cfg.threads.length with inside | outside
    · rw [List.getElem?_append_left inside] at found
      exact .inl found
    · rw [List.getElem?_append_right outside] at found
      refine .inr (.inl ⟨request, rfl, ?_, List.getElem?_eq_none outside⟩)
      have member := List.mem_of_getElem? found
      simpa using member
  · exact .inl found
  · by_cases same : moved = index
    · subst same
      have inside : moved < cfg.threads.length := (List.getElem?_eq_some_iff.mp at_moved).1
      rw [List.getElem?_set_self inside, Option.some.injEq] at found
      exact .inr (.inr ⟨choice, thread, op, rest, reply, rfl, at_moved, program, executed,
        found.symm⟩)
    · rw [List.getElem?_set_ne same] at found
      exact .inl found

-- No step forgets a thread, its request or anything it has seen.
theorem thread_kept {label : Label Choice Event Request} (stepped : M.next cfg label = some after)
    {index : Nat} {thread : Thread Reply Request Answer}
    (found : cfg.threads[index]? = some thread) :
    ∃ current, after.threads[index]? = some current ∧ current.request = thread.request ∧
      thread.log <:+ current.log := by
  have inside : index < cfg.threads.length := (List.getElem?_eq_some_iff.mp found).1
  rcases next_cases stepped with ⟨request, rfl, rfl⟩ | ⟨event, world, rfl, _, rfl⟩ |
    ⟨moved, choice, stepping, op, rest, reply, world, rfl, at_moved, _, _, rfl⟩
  · exact ⟨thread, by rw [List.getElem?_append_left inside, found], rfl, List.suffix_refl _⟩
  · exact ⟨thread, found, rfl, List.suffix_refl _⟩
  · by_cases same : moved = index
    · subst same
      rw [found, Option.some.injEq] at at_moved
      subst at_moved
      exact ⟨thread.resumed op reply rest, List.getElem?_set_self inside, rfl,
        List.suffix_cons _ _⟩
    · exact ⟨thread, by rw [List.getElem?_set_ne same, found], rfl, List.suffix_refl _⟩

-- The step of a thread whose operation is known.
theorem step_issued {index : Nat} {choice : Choice} {op : Op} {thread : Thread Reply Request Answer}
    (stepped : M.next cfg (.step index choice) = some after) (at_index : cfg.threads[index]? = some thread)
    (suspended : thread.Issues op) :
    ∃ rest reply world, thread.program = .call op rest ∧ M.exec choice op cfg.world = some (reply, world) ∧
      after = ⟨world, cfg.threads.set index (thread.resumed op reply rest)⟩ := by
  obtain ⟨rest, program⟩ := suspended
  rcases next_cases stepped with ⟨_, arrival, _⟩ | ⟨_, _, event, _⟩ |
    ⟨_, _, stepping, _, _, reply, world, same, at_moved, program', executed, rfl⟩
  · cases arrival
  · cases event
  · cases same
    rw [at_index, Option.some.injEq] at at_moved
    subst at_moved
    rw [program] at program'
    cases program'
    exact ⟨rest, reply, world, program, executed, rfl⟩

-- A thread that is at its place as before has not made the step.
theorem old_elsewhere {moved index : Nat} {choice : Choice} {thread : Thread Reply Request Answer}
    (stepped : M.next cfg (.step moved choice) = some after)
    (old : cfg.threads[index]? = some thread) (still : after.threads[index]? = some thread) :
    index ≠ moved := by
  rintro rfl
  rcases next_cases stepped with ⟨_, arrival, _⟩ | ⟨_, _, event, _⟩ |
    ⟨_, _, stepping, op, rest, reply, world, same, at_index, _, _, rfl⟩
  · cases arrival
  · cases event
  · cases same
    have inside := (List.getElem?_eq_some_iff.mp old).1
    rw [old, Option.some.injEq] at at_index
    subst at_index
    rw [List.getElem?_set_self inside, Option.some.injEq] at still
    have longer := congrArg (fun thread => thread.log.length) still
    simp [Thread.resumed] at longer

/-- What a thread has seen after a step it had seen before, unless the step is its
own and gave it just this reply. -/
theorem saw_after {label : Label Choice Event Request} (stepped : M.next cfg label = some after)
    {index : Nat} {current : Thread Reply Request Answer}
    (found : after.threads[index]? = some current) {op : Op} {reply : Reply op}
    (saw : current.log.Saw op reply) :
    (∃ thread, cfg.threads[index]? = some thread ∧ thread.request = current.request ∧
      thread.log.Saw op reply) ∨
    (∃ choice thread rest, label = .step index choice ∧ cfg.threads[index]? = some thread ∧
      thread.program = .call op rest ∧ M.exec choice op cfg.world = some (reply, after.world) ∧
      current = thread.resumed op reply rest) := by
  rcases thread_after stepped found with old | ⟨request, _, rfl, _⟩ |
    ⟨choice, thread, issued, rest, answered, same, at_index, program, executed, rfl⟩
  · exact .inl ⟨current, old, rfl, saw⟩
  · exact absurd saw (by simp [Log.Saw])
  · rcases List.mem_cons.mp saw with here | earlier
    · cases here
      exact .inr ⟨choice, thread, rest, same, at_index, program, executed, rfl⟩
    · exact .inl ⟨thread, at_index, rfl, earlier⟩

/-- What a thread has seen that came after `first` happened after `first`. -/
theorem Reaches.performed {first last : Config Reply World Request Answer} (run : M.Reaches allowed first last)
    {index : Nat} {thread : Thread Reply Request Answer} (late : first.threads.length ≤ index)
    (found : last.threads[index]? = some thread) {op : Op} {reply : Reply op} (saw : thread.log.Saw op reply) :
    ∃ middle label after choice, M.Reaches allowed first middle ∧ M.next middle label = some after ∧
      M.exec choice op middle.world = some (reply, after.world) ∧ M.Reaches allowed after last := by
  induction run generalizing thread with
  | refl =>
      have inside := (List.getElem?_eq_some_iff.mp found).1
      omega
  | tail label run meets stepped ih =>
      rcases saw_after stepped found saw with ⟨thread, old, _, earlier⟩ |
        ⟨choice, thread, rest, _, _, _, executed, _⟩
      · obtain ⟨middle, taken, after, choice, before, step, executed, since⟩ := ih old earlier
        exact ⟨middle, taken, after, choice, before, step, executed, since.tail label meets stepped⟩
      · exact ⟨_, label, _, choice, run, stepped, executed, .refl _⟩

section Seen
variable {fact fact' : Entry Reply → Prop}

/-- Everything any thread has seen satisfies `fact`. -/
def Seen (fact : Entry Reply → Prop) (cfg : Config Reply World Request Answer) : Prop :=
  ∀ thread ∈ cfg.threads, ∀ entry ∈ thread.log, fact entry

-- One step adds at most one entry to what has been seen: the stepping thread's.
theorem seen_next {label : Label Choice Event Request} (held : Seen fact cfg)
    (stepped : M.next cfg label = some after) (keeps : ∀ entry, fact entry → fact' entry)
    (fresh : ∀ thread ∈ cfg.threads, ∀ choice op reply, thread.Issues op →
      M.exec choice op cfg.world = some (reply, after.world) → fact' ⟨op, reply⟩) : Seen fact' after := by
  intro current member entry among
  obtain ⟨index, found⟩ := List.mem_iff_getElem?.mp member
  obtain ⟨op, reply⟩ := entry
  rcases saw_after stepped found among with ⟨thread, old, _, earlier⟩ |
    ⟨choice, thread, rest, _, at_index, program, executed, _⟩
  · exact keeps _ (held thread (List.mem_of_getElem? old) _ earlier)
  · exact fresh thread (List.mem_of_getElem? at_index) choice op reply ⟨rest, program⟩ executed

end Seen

section Discipline
variable {issue : Request → Log Reply → Op → Prop} {done : Request → Log Reply → Answer → Prop}

/-- Every thread's remaining program obeys the history logic from here on. -/
def Disciplined (issue : Request → Log Reply → Op → Prop)
    (done : Request → Log Reply → Answer → Prop) (cfg : Config Reply World Request Answer) : Prop :=
  ∀ thread ∈ cfg.threads,
    thread.program.Along (issue thread.request) (done thread.request) thread.log

theorem disciplined_next
    (handlers : ∀ request, (M.handler request).Along (issue request) (done request) [])
    {label : Label Choice Event Request} (held : Disciplined issue done cfg)
    (stepped : M.next cfg label = some after) : Disciplined issue done after := by
  intro current member
  obtain ⟨index, found⟩ := List.mem_iff_getElem?.mp member
  rcases thread_after stepped found with old | ⟨request, _, rfl, _⟩ |
    ⟨choice, thread, op, rest, reply, _, at_index, program, _, rfl⟩
  · exact held current (List.mem_of_getElem? old)
  · exact handlers request
  · have before := held thread (List.mem_of_getElem? at_index)
    rw [program, Program.along_call] at before
    exact before.2 reply

theorem Reaches.disciplined {first last : Config Reply World Request Answer}
    (run : M.Reaches allowed first last)
    (handlers : ∀ request, (M.handler request).Along (issue request) (done request) [])
    (start : Disciplined issue done first) : Disciplined issue done last :=
  run.invariant _ start fun _ _ _ held _ stepped => disciplined_next handlers held stepped

theorem Disciplined.issues (held : Disciplined issue done cfg)
    {thread : Thread Reply Request Answer} (member : thread ∈ cfg.threads)
    {op : Op} (suspended : thread.Issues op) : issue thread.request thread.log op := by
  obtain ⟨rest, program⟩ := suspended
  have along := held thread member
  rw [program, Program.along_call] at along
  exact along.1

theorem Disciplined.ends (held : Disciplined issue done cfg)
    {thread : Thread Reply Request Answer} (member : thread ∈ cfg.threads)
    {answer : Answer} (ended : thread.program = .ret answer) :
    done thread.request thread.log answer := by
  have along := held thread member
  rw [ended, Program.along_ret] at along
  exact along

/-- Whatever was issued was issued after a history that warrants it. -/
def Justified (issue : Request → Log Reply → Op → Prop) (cfg : Config Reply World Request Answer) : Prop :=
  ∀ thread ∈ cfg.threads, ∀ op reply earlier,
    (⟨op, reply⟩ : Entry Reply) :: earlier <:+ thread.log → issue thread.request earlier op

theorem justified_next {label : Label Choice Event Request} (held : Disciplined issue done cfg)
    (justified : Justified issue cfg) (stepped : M.next cfg label = some after) :
    Justified issue after := by
  intro current member op reply earlier within
  obtain ⟨index, found⟩ := List.mem_iff_getElem?.mp member
  rcases thread_after stepped found with old | ⟨request, _, rfl, _⟩ |
    ⟨choice, thread, issued, rest, answered, _, at_index, program, _, rfl⟩
  · exact justified current (List.mem_of_getElem? old) op reply earlier within
  · cases List.suffix_nil.mp within
  · have present := List.mem_of_getElem? at_index
    rcases List.suffix_cons_iff.mp within with whole | before
    · obtain ⟨entry, rfl⟩ := List.cons.inj whole
      cases entry
      exact held.issues present ⟨rest, program⟩
    · exact justified thread present op reply earlier before

theorem Reaches.justified {first last : Config Reply World Request Answer}
    (run : M.Reaches allowed first last)
    (handlers : ∀ request, (M.handler request).Along (issue request) (done request) [])
    (start : first.threads = []) : Justified issue last := by
  have held : Disciplined issue done last ∧ Justified issue last := by
    refine run.invariant (fun cfg => Disciplined issue done cfg ∧ Justified issue cfg) ?_
      fun _ _ _ both _ stepped =>
        ⟨disciplined_next handlers both.1 stepped, justified_next both.1 both.2 stepped⟩
    constructor
    · simp [Disciplined, start]
    · simp [Justified, start]
  exact held.2

theorem Justified.saw (justified : Justified issue cfg) {thread : Thread Reply Request Answer}
    (member : thread ∈ cfg.threads) {op : Op} {reply : Reply op} (saw : thread.log.Saw op reply) :
    ∃ earlier, earlier <:+ thread.log ∧ issue thread.request earlier op := by
  obtain ⟨later, earlier, whole⟩ := List.append_of_mem saw
  have within : (⟨op, reply⟩ : Entry Reply) :: earlier <:+ thread.log := ⟨later, whole.symm⟩
  exact ⟨earlier, (List.suffix_cons _ _).trans within, justified thread member op reply earlier within⟩

/-- What is only issued where nothing of its class was performed before is performed
once. -/
theorem Justified.once (justified : Justified issue cfg) {ofClass : Entry Reply → Prop}
    {thread : Thread Reply Request Answer} (member : thread ∈ cfg.threads)
    (first : ∀ log (entry : Entry Reply), issue thread.request log entry.op → ofClass entry →
      ∀ earlier ∈ log, ¬ ofClass earlier) {entry entry' : Entry Reply}
    (among : entry ∈ thread.log) (among' : entry' ∈ thread.log) (is : ofClass entry) (is' : ofClass entry') :
    entry = entry' := by
  -- Whichever was performed later was issued on a history that has the other.
  have alone {entry : Entry Reply} {later earlier : Log Reply} (is : ofClass entry)
      (whole : thread.log = later ++ entry :: earlier) : ∀ other ∈ earlier, ¬ ofClass other :=
    first _ entry (justified thread member entry.op entry.reply earlier ⟨later, whole.symm⟩) is
  obtain ⟨later, earlier, whole⟩ := List.append_of_mem among
  rw [whole] at among'
  rcases List.mem_append.mp among' with after | rest
  · obtain ⟨front, middle, split⟩ := List.append_of_mem after
    have shape : thread.log = front ++ entry' :: (middle ++ entry :: earlier) := by
      rw [whole, split, List.append_assoc, List.cons_append]
    exact absurd is (alone is' shape entry (List.mem_append_right _ List.mem_cons_self))
  · rcases List.mem_cons.mp rest with same | before
    · exact same.symm
    · exact absurd is' (alone is whole entry' before)

end Discipline

section Served
variable {offered : Request → Bool}

def offers (offered : Request → Bool) (_ : Config Reply World Request Answer) :
    Label Choice Event Request → Bool
  | .arrive request => offered request
  | _ => true

def Served (offered : Request → Bool) (cfg : Config Reply World Request Answer) : Prop :=
  ∀ thread ∈ cfg.threads, offered thread.request = true

theorem served_next {label : Label Choice Event Request} (served : Served offered cfg)
    (arrivals : offers offered cfg label = true) (stepped : M.next cfg label = some after) :
    Served offered after := by
  intro current member
  obtain ⟨index, found⟩ := List.mem_iff_getElem?.mp member
  rcases thread_after stepped found with old | ⟨request, rfl, rfl, _⟩ |
    ⟨choice, thread, op, rest, reply, _, at_index, _, _, rfl⟩
  · exact served current (List.mem_of_getElem? old)
  · exact arrivals
  · exact served thread (List.mem_of_getElem? at_index)

end Served

section Serial

def AtMostOneBusy (cfg : Config Reply World Request Answer) : Prop :=
  ∀ (i j : Nat) (first second : Thread Reply Request Answer), cfg.threads[i]? = some first →
    cfg.threads[j]? = some second → first.program.finished = false →
    second.program.finished = false → i = j

theorem atMostOneBusy_next {label : Label Choice Event Request} (one : AtMostOneBusy cfg)
    (waits : oneAtATime cfg label = true) (stepped : M.next cfg label = some after) :
    AtMostOneBusy after := by
  -- A busy thread of a later state is the new arrival or was busy before.
  have origin {index : Nat} {current : Thread Reply Request Answer}
      (found : after.threads[index]? = some current) (busy : current.program.finished = false) :
      (∃ request, label = .arrive request ∧ index = cfg.threads.length) ∨
        ∃ thread, cfg.threads[index]? = some thread ∧ thread.program.finished = false := by
    rcases thread_after stepped found with old | ⟨request, arrival, _, absent⟩ |
      ⟨choice, thread, op, rest, reply, _, at_index, program, _, _⟩
    · exact .inr ⟨current, old, busy⟩
    · refine .inl ⟨request, arrival, ?_⟩
      have outside := List.getElem?_eq_none_iff.mp absent
      have inside := (List.getElem?_eq_some_iff.mp found).1
      have count : after.threads.length = cfg.threads.length + 1 := by
        subst arrival
        simp only [next, Option.some.injEq] at stepped
        rw [← stepped, List.length_append, List.length_singleton]
      omega
    · exact .inr ⟨thread, at_index, by rw [program]; rfl⟩
  have nobody {request : Request} (arrival : label = .arrive request) {index : Nat}
      {thread : Thread Reply Request Answer} (found : cfg.threads[index]? = some thread) :
      thread.program.finished = true := by
    subst arrival
    exact List.all_eq_true.mp waits thread (List.mem_of_getElem? found)
  intro i j first second at_i at_j busy_first busy_second
  rcases origin at_i busy_first with ⟨request, arrival, rfl⟩ | ⟨thread, found, busy⟩
  · rcases origin at_j busy_second with ⟨_, _, rfl⟩ | ⟨other, found', busy'⟩
    · rfl
    · rw [nobody arrival found'] at busy'
      cases busy'
  · rcases origin at_j busy_second with ⟨request, arrival, rfl⟩ | ⟨other, found', busy'⟩
    · rw [nobody arrival found] at busy
      cases busy
    · exact one i j thread other found found' busy busy'

/-- In a run of complete requests whoever performs an operation is the only one
being served. -/
theorem Reaches.alone {first last : Config Reply World Request Answer}
    (run : M.Reaches (fun cfg label => oneAtATime cfg label = true ∧ allowed cfg label) first last)
    (start : AtMostOneBusy first) :
    M.Reaches (fun cfg label => AtMostOneBusy cfg ∧ allowed cfg label) first last ∧
      AtMostOneBusy last := by
  induction run with
  | refl => exact ⟨.refl _, start⟩
  | tail label _ meets stepped ih =>
      exact ⟨ih.1.tail label ⟨ih.2, meets.2⟩ stepped, atMostOneBusy_next ih.2 meets.1 stepped⟩

theorem AtMostOneBusy.others (one : AtMostOneBusy cfg) {label : Label Choice Event Request}
    {index : Nat} {thread : Thread Reply Request Answer} {op : Op}
    (performs : Performs cfg label index thread op) :
    Others cfg index fun other => other.program.finished = true := by
  obtain ⟨_, at_index, rest, program⟩ := performs
  intro j other elsewhere at_j
  by_contra busy
  refine elsewhere (one j index other thread at_j at_index (by simpa using busy) ?_)
  rw [program]
  rfl

end Serial

section Execution
variable (M)

/-- A run computed from its labels; every step is checked against `allowed`. -/
def run (allowed : Config Reply World Request Answer → Label Choice Event Request → Bool) :
    List (Label Choice Event Request) → Config Reply World Request Answer →
    Option (Config Reply World Request Answer)
  | [], cfg => some cfg
  | label :: rest, cfg =>
      if allowed cfg label then
        match M.next cfg label with
        | none => none
        | some after => run allowed rest after
      else none

theorem run_reaches
    (allowed : Config Reply World Request Answer → Label Choice Event Request → Bool)
    (labels : List (Label Choice Event Request)) (cfg last : Config Reply World Request Answer)
    (computed : M.run allowed labels cfg = some last) :
    M.Reaches (fun cfg label => allowed cfg label = true) cfg last := by
  induction labels generalizing cfg with
  | nil =>
      simp only [run, Option.some.injEq] at computed
      subst computed
      exact .refl cfg
  | cons label rest ih =>
      simp only [run] at computed
      split at computed
      · next meets =>
        split at computed
        · exact absurd computed (by simp)
        · next after stepped =>
          exact (Reaches.tail label (.refl cfg) meets stepped).trans (ih after computed)
      · exact absurd computed (by simp)

/-- A computed run that ends where `check` holds. -/
theorem run_meets
    (allowed : Config Reply World Request Answer → Label Choice Event Request → Bool)
    (labels : List (Label Choice Event Request)) (cfg : Config Reply World Request Answer)
    (check : Config Reply World Request Answer → Bool)
    (computed : (M.run allowed labels cfg).any check = true) :
    ∃ last, M.Reaches (fun cfg label => allowed cfg label = true) cfg last ∧ check last = true := by
  cases ran : M.run allowed labels cfg with
  | none => simp [ran] at computed
  | some last =>
      rw [ran, Option.any_some] at computed
      exact ⟨last, run_reaches M allowed labels cfg last ran, computed⟩

theorem run_takes (labels : List (Label Choice Event Request)) (cfg : Config Reply World Request Answer)
    (check : Config Reply World Request Answer → Bool)
    (computed : (M.run (fun _ _ => true) labels cfg).any check = true) :
    ∃ last, M.Reaches (fun _ label => label ∈ labels) cfg last ∧ check last = true := by
  have each (rest : List (Label Choice Event Request)) (among : rest ⊆ labels)
      (first last : Config Reply World Request Answer)
      (ran : M.run (fun _ _ => true) rest first = some last) :
      M.Reaches (fun _ label => label ∈ labels) first last := by
    induction rest generalizing first with
    | nil =>
        simp only [run, Option.some.injEq] at ran
        subst ran
        exact .refl first
    | cons label rest ih =>
        simp only [run, if_true] at ran
        split at ran
        · exact absurd ran (by simp)
        · next after stepped =>
          have later := ih (fun _ member => among (List.mem_cons_of_mem _ member)) after ran
          exact (Reaches.tail label (.refl first) (among List.mem_cons_self) stepped).trans later
  cases ran : M.run (fun _ _ => true) labels cfg with
  | none => simp [ran] at computed
  | some last =>
      rw [ran, Option.any_some] at computed
      exact ⟨last, each labels (List.Subset.refl _) cfg last ran, computed⟩

end Execution

end Machine
end Interleaving
