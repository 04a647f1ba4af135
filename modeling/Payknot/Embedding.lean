import Payknot.Serial

/-! Programs over a part of a larger signature, and what a program comes to when it is
fed given replies or given choices. -/
namespace Interleaving

variable {Part Op : Type} {Reply : Op → Type} {World Choice Answer Result : Type}

section Lifting
variable (inject : Part → Op)

def Entry.lift (entry : Entry fun part => Reply (inject part)) : Entry Reply := ⟨inject entry.op, entry.reply⟩

theorem Log.Saw.lift {log : Log fun part => Reply (inject part)} {part : Part} {reply : Reply (inject part)}
    (saw : log.Saw part reply) : Log.Saw (log.map (Entry.lift inject)) (inject part) reply :=
  List.mem_map_of_mem (f := Entry.lift inject) saw

namespace Program

def lift : Program (fun part => Reply (inject part)) Answer → Program Reply Answer
  | .ret answer => .ret answer
  | .call part next => .call (inject part) fun reply => (next reply).lift

theorem lift_bind (program : Program (fun part => Reply (inject part)) Answer)
    (next : Answer → Program (fun part => Reply (inject part)) Result) :
    (program >>= next).lift inject = program.lift inject >>= fun answer => (next answer).lift inject := by
  change (program.bind next).lift inject = (program.lift inject).bind fun answer => (next answer).lift inject
  induction program with
  | ret answer => rfl
  | call part rest ih =>
      simp only [bind, lift]
      exact congrArg _ (funext ih)

variable {inject}
variable {issue : Log Reply → Op → Prop} {done : Log Reply → Answer → Prop}

theorem along_lift (program : Program (fun part => Reply (inject part)) Answer)
    (log : Log fun part => Reply (inject part)) (before : Log Reply) :
    (program.lift inject).Along issue done (log.map (Entry.lift inject) ++ before) ↔
      program.Along (fun log part => issue (log.map (Entry.lift inject) ++ before) (inject part))
        (fun log answer => done (log.map (Entry.lift inject) ++ before) answer) log := by
  induction program generalizing log with
  | ret answer => rw [lift, along_ret, along_ret]
  | call part next ih =>
      rw [lift, along_call, along_call]
      exact and_congr_right fun _ => forall_congr' fun reply => ih reply (⟨part, reply⟩ :: log)

-- What is known of a program is known of it as a part of a larger one.
theorem Along.lift (inject : Part → Op) {program : Program (fun part => Reply (inject part)) Answer}
    {issue : (Log fun part => Reply (inject part)) → Part → Prop}
    {done : (Log fun part => Reply (inject part)) → Answer → Prop} (held : program.Along issue done [])
    (before : Log Reply) :
    (program.lift inject).Along
      (fun log op => ∃ part seen, op = inject part ∧ log = seen.map (Entry.lift inject) ++ before ∧ issue seen part)
      (fun log answer => ∃ seen, log = seen.map (Entry.lift inject) ++ before ∧ done seen answer) before := by
  apply (along_lift program [] before).mpr
  exact held.mono (fun log part issued => ⟨part, log, rfl, rfl, issued⟩) fun log answer ends => ⟨log, rfl, ends⟩

end Program
end Lifting

section Following

/-- Fed the replies that `later` adds to `log`, the program ends there with this answer. -/
inductive Follows : Program Reply Answer → Log Reply → Answer → Log Reply → Prop where
  | ret (answer log) : Follows (.ret answer) log answer log
  | call {op next log reply answer later} : Follows (next reply) (⟨op, reply⟩ :: log) answer later →
      Follows (.call op next) log answer later

theorem Program.along_any (program : Program Reply Answer) (log : Log Reply) :
    program.Along (fun _ _ => True) (fun _ _ => True) log :=
  (Program.along_grows program log).mono (fun _ _ _ => trivial) fun _ _ _ => trivial

theorem along_follows (program : Program Reply Answer) (log : Log Reply) :
    program.Along (fun _ _ => True) (fun later answer => Follows program log answer later) log := by
  induction program generalizing log with
  | ret answer =>
      rw [Program.along_ret]
      exact .ret answer log
  | call op next ih =>
      rw [Program.along_call]
      exact ⟨trivial, fun reply => (ih reply _).mono (fun _ _ _ => trivial) fun _ _ follows => .call follows⟩

-- What is known of a program is known of every history that feeds it.
theorem Program.Along.follows {issue : Log Reply → Op → Prop} {done : Log Reply → Answer → Prop}
    {program : Program Reply Answer} {log later : Log Reply} {answer : Answer}
    (along : program.Along issue done log) (follows : Follows program log answer later) : done later answer := by
  induction follows with
  | ret answer log =>
      rw [Program.along_ret] at along
      exact along
  | call _ ih =>
      rw [Program.along_call] at along
      exact ih (along.2 _)

theorem Follows.grown {program : Program Reply Answer} {log later : Log Reply} {answer : Answer}
    (follows : Follows program log answer later) : log <:+ later := by
  induction follows with
  | ret answer log => exact List.suffix_refl log
  | call _ ih => exact (List.suffix_cons _ _).trans ih

theorem Follows.bind {program : Program Reply Answer} {next : Answer → Program Reply Result}
    {log middle later : Log Reply} {answer : Answer} {result : Result} (first : Follows program log answer middle)
    (rest : Follows (next answer) middle result later) : Follows (program >>= next) log result later := by
  change Follows (program.bind next) log result later
  induction first with
  | ret answer log => exact rest
  | call _ ih => exact .call (ih rest)

theorem Follows.perform_bind {op : Op} {next : Reply op → Program Reply Answer} {log later : Log Reply}
    {answer : Answer} (reply : Reply op) (rest : Follows (next reply) (⟨op, reply⟩ :: log) answer later) :
    Follows (Program.perform op >>= next) log answer later :=
  .call rest

theorem Follows.of_bind {program : Program Reply Answer} {next : Answer → Program Reply Result}
    {log later : Log Reply} {result : Result} (follows : Follows (program >>= next) log result later) :
    ∃ answer middle, Follows program log answer middle ∧ Follows (next answer) middle result later := by
  change Follows (program.bind next) log result later at follows
  induction program generalizing log with
  | ret answer => exact ⟨answer, log, .ret answer log, follows⟩
  | call op rest ih =>
      cases follows with
      | call follows =>
          obtain ⟨answer, middle, first, last⟩ := ih _ follows
          exact ⟨answer, middle, .call first, last⟩

theorem Follows.of_perform_bind {op : Op} {next : Reply op → Program Reply Answer} {log later : Log Reply}
    {answer : Answer} (follows : Follows (Program.perform op >>= next) log answer later) :
    ∃ reply, Follows (next reply) (⟨op, reply⟩ :: log) answer later := by
  cases follows with
  | call rest => exact ⟨_, rest⟩

-- Whatever the operations answer, a program comes to its end.
theorem exists_follows (oracle : ∀ op, Reply op) (program : Program Reply Answer) (log : Log Reply) :
    ∃ answer later, Follows program log answer later ∧
      ∀ entry ∈ later, entry ∈ log ∨ entry.reply = oracle entry.op := by
  induction program generalizing log with
  | ret answer => exact ⟨answer, log, .ret answer log, fun _ member => .inl member⟩
  | call op next ih =>
      obtain ⟨answer, later, follows, answered⟩ := ih (oracle op) (⟨op, oracle op⟩ :: log)
      refine ⟨answer, later, .call follows, fun entry member => ?_⟩
      rcases answered entry member with older | by_oracle
      · rcases List.mem_cons.mp older with rfl | older
        · exact .inr rfl
        · exact .inl older
      · exact .inr by_oracle

-- What a run has seen is a history that leads the program to its answer.
theorem Traces.follows {perform : Performing Reply World} {program : Program Reply Answer} {w after : World}
    {log later : Log Reply} {answer : Answer} (traced : Traces perform program w log answer after later) :
    Follows program log answer later := by
  induction traced with
  | ret answer w log => exact .ret answer log
  | call _ _ ih => exact .call ih

theorem Follows.unique {program : Program Reply Answer} {log later later' whole : Log Reply}
    {answer answer' : Answer} (follows : Follows program log answer later)
    (follows' : Follows program log answer' later') (within : later <:+ whole) (within' : later' <:+ whole) :
    answer = answer' := by
  induction follows with
  | ret answer log =>
      cases follows'
      rfl
  | call rest ih =>
      cases follows' with
      | call rest' =>
          -- Both histories go on from `log`, so they have the next entry in common.
          have same := List.suffix_of_suffix_length_le (rest.grown.trans within) (rest'.grown.trans within')
            (by simp)
          cases same.eq_of_length (by simp)
          exact ih rest' within

end Following

section Attending
variable (exec : Choice → (op : Op) → World → Option (Reply op × World))

/-- The program's run when its operations take these choices in turn, with the choices left. -/
def Program.attend : Program Reply Answer → (Nat → Choice) → World → Option (Answer × (Nat → Choice) × World)
  | .ret answer, choices, w => some (answer, choices, w)
  | .call op next, choices, w =>
      match exec (choices 0) op w with
      | none => none
      | some (reply, middle) => (next reply).attend (fun n => choices (n + 1)) middle

variable {exec}

theorem attend_perform_bind (op : Op) (next : Reply op → Program Reply Result) (choices : Nat → Choice) (w : World) :
    (Program.perform op >>= next).attend exec choices w =
      match exec (choices 0) op w with
      | none => none
      | some (reply, middle) => (next reply).attend exec (fun n => choices (n + 1)) middle := by
  change (Program.call op fun reply => (Program.ret reply).bind next).attend exec choices w = _
  rw [Program.attend]
  cases exec (choices 0) op w with
  | none => rfl
  | some step => rfl

theorem attend_bind (program : Program Reply Answer) (next : Answer → Program Reply Result)
    (choices : Nat → Choice) (w : World) :
    (program >>= next).attend exec choices w =
      (program.attend exec choices w).bind fun (answer, left, middle) => (next answer).attend exec left middle := by
  change (program.bind next).attend exec choices w = _
  induction program generalizing choices w with
  | ret answer => rfl
  | call op rest ih =>
      simp only [Program.bind, Program.attend]
      cases exec (choices 0) op w with
      | none => rfl
      | some step => exact ih _ _ _

-- A part is attended as the whole attends its operations.
theorem attend_lift {Part : Type} (inject : Part → Op) (program : Program (fun part => Reply (inject part)) Answer)
    (choices : Nat → Choice) (w : World) :
    (program.lift inject).attend exec choices w =
      program.attend (fun choice part => exec choice (inject part)) choices w := by
  induction program generalizing choices w with
  | ret answer => rfl
  | call part next ih =>
      simp only [Program.lift, Program.attend]
      cases exec (choices 0) (inject part) w with
      | none => rfl
      | some step => exact ih _ _ _

def AnswerAlike (related : World → World → Prop) (first second : Option (Answer × World)) : Prop :=
  first = none ∧ second = none ∨ ∃ answer w w', first = some (answer, w) ∧ second = some (answer, w') ∧ related w w'

/-- Related worlds that answer alike whatever the program may issue cannot be told apart
by it. -/
theorem attend_alike {related : World → World → Prop} {quiet : Op → Prop} {done : Log Reply → Answer → Prop}
    (alike : ∀ choice op w w', quiet op → related w w' →
      AnswerAlike related (exec choice op w) (exec choice op w'))
    {program : Program Reply Answer} {log : Log Reply} (along : program.Along (fun _ op => quiet op) done log)
    (choices : Nat → Choice) {w w' : World} (start : related w w') :
    program.attend exec choices w = none ∧ program.attend exec choices w' = none ∨
      ∃ answer left after after', program.attend exec choices w = some (answer, left, after) ∧
        program.attend exec choices w' = some (answer, left, after') ∧ related after after' := by
  induction program generalizing log choices w w' with
  | ret answer => exact .inr ⟨answer, choices, w, w', rfl, rfl, start⟩
  | call op next ih =>
      rw [Program.along_call] at along
      simp only [Program.attend]
      rcases alike (choices 0) op w w' along.1 start with ⟨first, second⟩ | ⟨reply, middle, middle', first, second, same⟩
      · rw [first, second]
        exact .inl ⟨rfl, rfl⟩
      · rw [first, second]
        exact ih reply (along.2 reply) _ same

end Attending
end Interleaving
