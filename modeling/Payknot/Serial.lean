import Payknot.Interleaving

/-! Complete requests, served one after another. A run of one program to its end is a
big-step relation with its weakest precondition, and every sequence of such runs is a
run of the machine in which nobody else is being served. -/
namespace Interleaving

variable {Op : Type} {Reply : Op → Type} {World Choice Event Request Answer Result : Type}

abbrev Performing {Op : Type} (Reply : Op → Type) (World : Type) :=
  (op : Op) → World → Reply op → World → Prop

inductive Runs (perform : Performing Reply World) :
    Program Reply Answer → World → Answer → World → Prop where
  | ret (answer w) : Runs perform (.ret answer) w answer w
  | call {op next w reply middle answer after} : perform op w reply middle →
      Runs perform (next reply) middle answer after → Runs perform (.call op next) w answer after

inductive Traces (perform : Performing Reply World) :
    Program Reply Answer → World → Log Reply → Answer → World → Log Reply → Prop where
  | ret (answer w log) : Traces perform (.ret answer) w log answer w log
  | call {op next w log reply middle answer after later} : perform op w reply middle →
      Traces perform (next reply) middle (⟨op, reply⟩ :: log) answer after later →
      Traces perform (.call op next) w log answer after later

theorem Runs.traces {perform : Performing Reply World} {program : Program Reply Answer}
    {w after : World} {answer : Answer} (runs : Runs perform program w answer after) (log : Log Reply) :
    ∃ later, Traces perform program w log answer after later := by
  induction runs generalizing log with
  | ret answer w => exact ⟨log, .ret answer w log⟩
  | call performed _ ih =>
      obtain ⟨later, traced⟩ := ih _
      exact ⟨later, .call performed traced⟩

theorem Traces.bind {perform : Performing Reply World} {program : Program Reply Answer}
    {next : Answer → Program Reply Result} {w middle after : World} {log seen later : Log Reply}
    {answer : Answer} {result : Result} (first : Traces perform program w log answer middle seen)
    (rest : Traces perform (next answer) middle seen result after later) :
    Traces perform (program >>= next) w log result after later := by
  change Traces perform (program.bind next) w log result after later
  induction first with
  | ret answer w log => exact rest
  | call performed _ ih => exact .call performed (ih rest)

theorem Traces.perform_bind {perform : Performing Reply World} {op : Op}
    {next : Reply op → Program Reply Answer} {w middle after : World} {log later : Log Reply}
    {reply : Reply op} {answer : Answer} (performed : perform op w reply middle)
    (rest : Traces perform (next reply) middle (⟨op, reply⟩ :: log) answer after later) :
    Traces perform (Program.perform op >>= next) w log answer after later :=
  .call performed rest

theorem Traces.of_bind {perform : Performing Reply World} {program : Program Reply Answer}
    {next : Answer → Program Reply Result} {w after : World} {log later : Log Reply} {result : Result}
    (traced : Traces perform (program >>= next) w log result after later) :
    ∃ answer middle seen, Traces perform program w log answer middle seen ∧
      Traces perform (next answer) middle seen result after later := by
  change Traces perform (program.bind next) w log result after later at traced
  induction program generalizing w log with
  | ret answer => exact ⟨answer, w, log, .ret answer w log, traced⟩
  | call op rest ih =>
      cases traced with
      | call performed traced =>
          obtain ⟨answer, middle, seen, first, last⟩ := ih _ traced
          exact ⟨answer, middle, seen, .call performed first, last⟩

-- Where every operation has one outcome, so has the program.
theorem Traces.unique {perform : Performing Reply World} {single : Op → Prop}
    {done : Log Reply → Answer → Prop}
    (one : ∀ op w reply reply' after after', single op → perform op w reply after →
      perform op w reply' after' → reply = reply' ∧ after = after')
    {program : Program Reply Answer} {w after after' : World} {log later later' : Log Reply}
    {answer answer' : Answer} (along : program.Along (fun _ op => single op) done log)
    (traced : Traces perform program w log answer after later)
    (traced' : Traces perform program w log answer' after' later') :
    answer = answer' ∧ after = after' ∧ later = later' := by
  induction traced with
  | ret answer w log =>
      cases traced'
      exact ⟨rfl, rfl, rfl⟩
  | call performed _ ih =>
      rw [Program.along_call] at along
      cases traced' with
      | call performed' rest' =>
          obtain ⟨rfl, rfl⟩ := one _ _ _ _ _ _ along.1 performed performed'
          exact ih (along.2 _) rest'

-- A program all of whose operations are answered comes to an end.
theorem Traces.exists {perform : Performing Reply World} {total : Op → Prop}
    {done : Log Reply → Answer → Prop}
    (answered : ∀ op w, total op → ∃ reply after, perform op w reply after)
    {program : Program Reply Answer} {log : Log Reply}
    (along : program.Along (fun _ op => total op) done log) (w : World) :
    ∃ answer after later, Traces perform program w log answer after later := by
  induction program generalizing log w with
  | ret answer => exact ⟨answer, w, log, .ret answer w log⟩
  | call op next ih =>
      rw [Program.along_call] at along
      obtain ⟨reply, middle, performed⟩ := answered op w along.1
      obtain ⟨answer, after, later, traced⟩ := ih reply (along.2 reply) middle
      exact ⟨answer, after, later, .call performed traced⟩

-- A trace performs only what its program may issue.
theorem Traces.issues {perform : Performing Reply World} {program : Program Reply Answer} {w after : World}
    {log later : Log Reply} {answer : Answer} {quiet : Op → Prop} {done : Log Reply → Answer → Prop}
    (traced : Traces perform program w log answer after later)
    (along : program.Along (fun _ op => quiet op) done log) :
    Traces (fun op w reply after => quiet op ∧ perform op w reply after) program w log answer after later := by
  induction traced with
  | ret answer w log => exact .ret answer w log
  | call performed _ ih =>
      rw [Program.along_call] at along
      exact .call ⟨along.1, performed⟩ (ih (along.2 _))

/-- Wherever the program ends, it ends with `post`. -/
def Program.Ensures (perform : Performing Reply World) (post : Answer → World → Prop) :
    Program Reply Answer → World → Prop
  | .ret answer, w => post answer w
  | .call op next, w => ∀ reply middle, perform op w reply middle →
      (next reply).Ensures perform post middle

namespace Program
variable {perform : Performing Reply World} {post post' : Answer → World → Prop}

@[simp] theorem ensures_ret (answer : Answer) (w : World) :
    Ensures perform post (.ret answer : Program Reply Answer) w ↔ post answer w := Iff.rfl

@[simp] theorem ensures_pure (answer : Answer) (w : World) :
    Ensures perform post (pure answer : Program Reply Answer) w ↔ post answer w := Iff.rfl

theorem ensures_call (op : Op) (next : Reply op → Program Reply Answer) (w : World) :
    Ensures perform post (.call op next) w ↔
      ∀ reply middle, perform op w reply middle → Ensures perform post (next reply) middle := Iff.rfl

theorem ensures_perform_bind (op : Op) (next : Reply op → Program Reply Result) (w : World)
    {post : Result → World → Prop} :
    Ensures perform post (Program.perform op >>= next) w ↔
      ∀ reply middle, perform op w reply middle → Ensures perform post (next reply) middle := Iff.rfl

theorem ensures_bind (program : Program Reply Answer) (next : Answer → Program Reply Result)
    (w : World) {post : Result → World → Prop} :
    Ensures perform post (program >>= next) w ↔
      Ensures perform (fun answer middle => Ensures perform post (next answer) middle) program w := by
  change Ensures perform post (program.bind next) w ↔ _
  induction program generalizing w with
  | ret answer => exact Iff.rfl
  | call op rest ih =>
      simp only [bind, Ensures]
      exact forall_congr' fun reply => forall_congr' fun middle => imp_congr_right fun _ => ih reply middle

-- Unfolding would evaluate the branches a program has not reached yet.
attribute [irreducible] Ensures

theorem Ensures.mono {program : Program Reply Answer} {w : World}
    (held : Ensures perform post program w)
    (weaker : ∀ answer after, post answer after → post' answer after) :
    Ensures perform post' program w := by
  induction program generalizing w with
  | ret answer =>
      rw [ensures_ret] at held ⊢
      exact weaker _ _ held
  | call op next ih =>
      rw [ensures_call] at held ⊢
      exact fun reply middle performed => ih reply (held reply middle performed)

-- What every operation of a program keeps is kept by the program.
theorem Along.ensures {quiet : Op → Prop} (held : World → Prop) {done : Log Reply → Answer → Prop}
    {program : Program Reply Answer} {w : World} {log : Log Reply}
    (along : program.Along (fun _ op => quiet op) done log) (start : held w)
    (keeps : ∀ op w reply after, quiet op → perform op w reply after → held w → held after) :
    Ensures perform (fun _ => held) program w := by
  induction program generalizing w log with
  | ret answer =>
      rw [ensures_ret]
      exact start
  | call op next ih =>
      rw [along_call] at along
      rw [ensures_call]
      intro reply middle performed
      exact ih reply (along.2 reply) (keeps op w reply middle along.1 performed start)

-- The rule for a sub-program that is known by what it ensures.
theorem Ensures.sequence {program : Program Reply Answer} {next : Answer → Program Reply Result}
    {w : World} {ended : Result → World → Prop} (held : Ensures perform post program w)
    (rest : ∀ answer middle, post answer middle → Ensures perform ended (next answer) middle) :
    Ensures perform ended (program >>= next) w := by
  rw [ensures_bind]
  exact held.mono rest

theorem Ensures.runs {program : Program Reply Answer} {w after : World} {answer : Answer}
    (held : Ensures perform post program w) (runs : Runs perform program w answer after) :
    post answer after := by
  induction runs with
  | ret answer w => rwa [ensures_ret] at held
  | call performed _ ih =>
      rw [ensures_call] at held
      exact ih (held _ _ performed)

end Program

namespace Machine
variable (M : Machine Reply World Choice Event Request Answer) (sound : Choice → Prop)

def performing : Performing Reply World := fun op w reply after =>
  ∃ choice, sound choice ∧ M.exec choice op w = some (reply, after)

/-- Requests served one after another, with what each answers and leaves behind. -/
inductive Serves : World → List Request → List (Answer × World) → Prop where
  | nil (w) : Serves w [] []
  | cons {w request answer middle rest trace} :
      Runs (M.performing sound) (M.handler request) w answer middle → Serves middle rest trace →
      Serves w (request :: rest) ((answer, middle) :: trace)

def soundSteps (_ : Config Reply World Request Answer) (label : Label Choice Event Request) : Prop :=
  ∀ index choice, label = .step index choice → sound choice

variable {M sound}
variable {cfg : Config Reply World Request Answer}

theorem traces_reaches {program : Program Reply Answer} {w after : World} {log later : Log Reply}
    {answer : Answer} (traced : Traces (M.performing sound) program w log answer after later)
    (before : List (Thread Reply Request Answer)) (request : Request) :
    M.Reaches (fun cfg label => oneAtATime cfg label = true ∧ soundSteps sound cfg label)
      ⟨w, before ++ [⟨request, log, program⟩]⟩ ⟨after, before ++ [⟨request, later, .ret answer⟩]⟩ := by
  induction traced with
  | ret answer w log => exact .refl _
  | @call op next w log reply middle answer after later performed _ ih =>
      obtain ⟨choice, allowed, executed⟩ := performed
      have stepped : M.next ⟨w, before ++ [⟨request, log, .call op next⟩]⟩
          (.step before.length choice) =
            some ⟨middle, before ++ [⟨request, ⟨op, reply⟩ :: log, next reply⟩]⟩ := by
        simp [Machine.next, executed, Thread.resumed]
      have meets : soundSteps sound ⟨w, before ++ [⟨request, log, .call op next⟩]⟩
          (.step before.length choice : Label Choice Event Request) := by
        rintro _ _ ⟨⟩
        exact allowed
      exact (Reaches.tail _ (.refl _) ⟨rfl, meets⟩ stepped).trans ih

/-- A thread among others performs the first part of its program, if operations of that
kind are allowed. -/
theorem traces_advance {allowed : Config Reply World Request Result → Label Choice Event Request → Prop}
    {M : Machine Reply World Choice Event Request Result} {quiet : Op → Prop}
    (free : ∀ (cfg : Config Reply World Request Result) index choice thread op,
      cfg.threads[index]? = some thread → thread.Issues op → quiet op → allowed cfg (.step index choice))
    {program : Program Reply Answer} {next : Answer → Program Reply Result} {w after : World}
    {log later : Log Reply} {answer : Answer}
    (traced : Traces (fun op w reply after => quiet op ∧ M.performing sound op w reply after) program w log
      answer after later) (before rest : List (Thread Reply Request Result)) (request : Request) :
    M.Reaches allowed ⟨w, before ++ ⟨request, log, program >>= next⟩ :: rest⟩
      ⟨after, before ++ ⟨request, later, next answer⟩ :: rest⟩ := by
  change M.Reaches allowed ⟨w, before ++ ⟨request, log, program.bind next⟩ :: rest⟩ _
  induction traced with
  | ret answer w log => exact .refl _
  | @call op following w log reply middle answer after later performed _ ih =>
      obtain ⟨is_quiet, choice, _, executed⟩ := performed
      let here : Config Reply World Request Result :=
        ⟨w, before ++ ⟨request, log, .call op fun reply => (following reply).bind next⟩ :: rest⟩
      have at_index : here.threads[before.length]? =
          some ⟨request, log, .call op fun reply => (following reply).bind next⟩ := by simp [here]
      have stepped : M.next here (.step before.length choice) =
          some ⟨middle, before ++ ⟨request, ⟨op, reply⟩ :: log, (following reply).bind next⟩ :: rest⟩ := by
        simp [here, Machine.next, executed, Thread.resumed]
      have meets := free here before.length choice _ op at_index ⟨_, rfl⟩ is_quiet
      exact (Reaches.tail _ (.refl _) meets stepped).trans ih

-- A request that is served from its arrival to its end while nobody else is.
theorem traces_serves {request : Request} {after : World} {later : Log Reply} {answer : Answer}
    (resting : idle cfg = true)
    (traced : Traces (M.performing sound) (M.handler request) cfg.world [] answer after later) :
    M.Reaches (fun cfg label => oneAtATime cfg label = true ∧ soundSteps sound cfg label)
      cfg ⟨after, cfg.threads ++ [⟨request, later, .ret answer⟩]⟩ := by
  have arrives : M.next cfg (.arrive request) =
      some { cfg with threads := cfg.threads ++ [⟨request, [], M.handler request⟩] } := rfl
  have waits : oneAtATime cfg (.arrive request : Label Choice Event Request) = true := resting
  exact (Reaches.tail _ (.refl _) ⟨waits, fun _ _ step => by cases step⟩ arrives).trans
    (traces_reaches traced cfg.threads request)

theorem idle_append {request : Request} {after : World} {later : Log Reply} {answer : Answer}
    (resting : idle cfg = true) :
    idle (⟨after, cfg.threads ++ [⟨request, later, .ret answer⟩]⟩ :
      Config Reply World Request Answer) = true := by
  simpa [idle, Program.finished] using resting

theorem serves_reaches {requests : List Request} {trace : List (Answer × World)} {w : World}
    (served : M.Serves sound w requests trace) (same : cfg.world = w) (resting : idle cfg = true) :
    ∃ last, M.Reaches (fun cfg label => oneAtATime cfg label = true ∧ soundSteps sound cfg label)
      cfg last ∧ idle last = true ∧ last.world = (trace.map Prod.snd).getLastD w := by
  induction served generalizing cfg with
  | nil w => exact ⟨cfg, .refl _, resting, same⟩
  | @cons w request answer middle rest trace runs _ ih =>
      subst same
      obtain ⟨log, traced⟩ := runs.traces []
      have served := traces_serves resting traced
      obtain ⟨last, later, ended, world⟩ := @ih ⟨middle, _⟩ rfl (idle_append resting)
      refine ⟨last, served.trans later, ended, ?_⟩
      rw [world]
      cases trace <;> simp [List.getLastD]

section Between
variable {perform : Request → Performing Reply World} {held : World → Prop}
variable {allowed : Config Reply World Request Answer → Label Choice Event Request → Prop}

/-- It holds when nobody is being served, and whoever is being served will leave it so. -/
structure Awaited (perform : Request → Performing Reply World) (held : World → Prop)
    (cfg : Config Reply World Request Answer) : Prop where
  one : AtMostOneBusy cfg
  pending : ∀ (index : Nat) (thread : Thread Reply Request Answer), cfg.threads[index]? = some thread →
    thread.program.finished = false →
      thread.program.Ensures (perform thread.request) (fun _ => held) cfg.world
  settled : idle cfg = true → held cfg.world

theorem not_busy (resting : idle cfg = true) {index : Nat} {thread : Thread Reply Request Answer}
    (found : cfg.threads[index]? = some thread) : thread.program.finished ≠ false := by
  have done := List.all_eq_true.mp resting thread (List.mem_of_getElem? found)
  simp [done]

theorem Awaited.of_idle (resting : idle cfg = true) (start : held cfg.world) :
    Awaited perform held cfg := by
  constructor
  · intro i j first second at_i _ busy
    exact absurd busy (not_busy resting at_i)
  · intro index thread found busy
    exact absurd busy (not_busy resting found)
  · exact fun _ => start

theorem awaited_next {label : Label Choice Event Request} {after : Config Reply World Request Answer}
    (performs : ∀ index choice thread op reply, label = .step index choice →
      cfg.threads[index]? = some thread → thread.Issues op →
      M.exec choice op cfg.world = some (reply, after.world) →
      perform thread.request op cfg.world reply after.world)
    (serves : ∀ request w, held w → (M.handler request).Ensures (perform request) (fun _ => held) w)
    (events : ∀ event w after, held w → M.occur event w = some after → held after)
    (awaited : Awaited perform held cfg) (waits : oneAtATime cfg label = true)
    (stepped : M.next cfg label = some after) : Awaited perform held after := by
  have one := atMostOneBusy_next awaited.one waits stepped
  rcases next_cases stepped with ⟨request, rfl, rfl⟩ | ⟨event, world, rfl, occurred, rfl⟩ |
    ⟨moved, choice, thread, op, rest, reply, world, rfl, at_moved, program, executed, rfl⟩
  · have now := awaited.settled waits
    refine ⟨one, ?_, fun _ => now⟩
    intro index current found busy
    rcases thread_after stepped found with old | ⟨_, same, rfl, _⟩ | ⟨_, _, _, _, _, step, _⟩
    · exact absurd busy (not_busy waits old)
    · cases same
      exact serves request cfg.world now
    · cases step
  · exact .of_idle waits (events event cfg.world world (awaited.settled waits) occurred)
  · -- Only the stepping thread is busy, and what it ensures it ensures from here on.
    have busy : thread.program.finished = false := by
      rw [program]
      rfl
    have here := awaited.pending moved thread at_moved busy
    rw [program, Program.ensures_call] at here
    have next := here reply world (performs moved choice thread op reply rfl at_moved ⟨rest, program⟩ executed)
    have inside := (List.getElem?_eq_some_iff.mp at_moved).1
    refine ⟨one, ?_, ?_⟩
    · intro index current found busy'
      by_cases same : moved = index
      · subst same
        rw [List.getElem?_set_self inside, Option.some.injEq] at found
        subst found
        exact next
      · rw [List.getElem?_set_ne same] at found
        exact absurd (awaited.one index moved current thread found at_moved busy' busy).symm same
    · intro resting
      have ended := List.all_eq_true.mp resting _
        (List.mem_of_getElem? (List.getElem?_set_self (a := thread.resumed op reply rest) inside))
      change (rest reply).finished = true at ended
      cases last : rest reply with
      | ret answer =>
          rw [last, Program.ensures_ret] at next
          exact next
      | call op' rest' =>
          rw [last] at ended
          cases ended

/-- What every complete request keeps, and every event, holds whenever nobody is being
served. -/
theorem Reaches.between {first last : Config Reply World Request Answer}
    (run : M.Reaches (fun cfg label => oneAtATime cfg label = true ∧ allowed cfg label) first last)
    (performs : ∀ (cfg : Config Reply World Request Answer) index choice thread op reply after,
      allowed cfg (.step index choice) → cfg.threads[index]? = some thread → thread.Issues op →
      M.exec choice op cfg.world = some (reply, after) →
      perform thread.request op cfg.world reply after)
    (serves : ∀ request w, held w → (M.handler request).Ensures (perform request) (fun _ => held) w)
    (events : ∀ event w after, held w → M.occur event w = some after → held after)
    (resting : idle first = true) (start : held first.world) (ended : idle last = true) :
    held last.world := by
  have awaited : Awaited perform held last := by
    refine run.invariant _ (.of_idle resting start) fun cfg label after awaited meets stepped => ?_
    refine awaited_next ?_ serves events awaited meets.1 stepped
    rintro index choice thread op reply rfl found issues executed
    exact performs cfg index choice thread op reply _ meets.2 found issues executed
  exact awaited.settled ended

end Between
end Machine

section Play
variable (exec : Choice → (op : Op) → World → Option (Reply op × World))

def Program.play : Program Reply Answer → List Choice → World → Option (Answer × World)
  | .ret answer, [], w => some (answer, w)
  | .ret _, _ :: _, _ => none
  | .call _ _, [], _ => none
  | .call op next, choice :: rest, w =>
      match exec choice op w with
      | none => none
      | some (reply, middle) => (next reply).play rest middle

theorem Program.play_runs (M : Machine Reply World Choice Event Request Answer) {sound : Choice → Prop}
    {program : Program Reply Result} {choices : List Choice} {w after : World} {answer : Result}
    (all : ∀ choice ∈ choices, sound choice)
    (played : program.play M.exec choices w = some (answer, after)) :
    Runs (M.performing sound) program w answer after := by
  induction program generalizing choices w with
  | ret result =>
      cases choices with
      | nil =>
          cases played
          exact .ret _ _
      | cons choice rest => cases played
  | call op next ih =>
      cases choices with
      | nil => cases played
      | cons choice rest =>
          simp only [play] at played
          split at played
          · cases played
          · next reply middle executed =>
            have first := all choice List.mem_cons_self
            exact .call ⟨choice, first, executed⟩
              (ih reply (fun other member => all other (List.mem_cons_of_mem _ member)) played)

def Program.playLogged : Program Reply Answer → List Choice → World → Log Reply →
    Option (Answer × World × Log Reply)
  | .ret answer, [], w, log => some (answer, w, log)
  | .ret _, _ :: _, _, _ => none
  | .call _ _, [], _, _ => none
  | .call op next, choice :: rest, w, log =>
      match exec choice op w with
      | none => none
      | some (reply, middle) => (next reply).playLogged rest middle (⟨op, reply⟩ :: log)

theorem Program.playLogged_traces (M : Machine Reply World Choice Event Request Answer)
    {sound : Choice → Prop} {program : Program Reply Result} {choices : List Choice} {w after : World}
    {log later : Log Reply} {answer : Result} (all : ∀ choice ∈ choices, sound choice)
    (played : program.playLogged M.exec choices w log = some (answer, after, later)) :
    Traces (M.performing sound) program w log answer after later := by
  induction program generalizing choices w log with
  | ret result =>
      cases choices with
      | nil =>
          cases played
          exact .ret _ _ _
      | cons choice rest => cases played
  | call op next ih =>
      cases choices with
      | nil => cases played
      | cons choice rest =>
          simp only [playLogged] at played
          split at played
          · cases played
          · next reply middle executed =>
            have first := all choice List.mem_cons_self
            exact .call ⟨choice, first, executed⟩
              (ih reply (fun other member => all other (List.mem_cons_of_mem _ member)) played)

end Play
end Interleaving
