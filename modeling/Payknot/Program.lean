import Mathlib.Logic.Basic

/-! Effectful programs over a typed operation signature, and the history logic.
An operation is one atomic interaction with the outside (a statement, a command,
a remote call); its reply type depends on the operation. Programs are trees, so
one definition of a handler serves sequential and interleaved execution. -/
namespace Interleaving

variable {Op : Type} {Reply : Op → Type} {Answer Result : Type}

inductive Program {Op : Type} (Reply : Op → Type) (Answer : Type) : Type where
  | ret (answer : Answer)
  | call (op : Op) (next : Reply op → Program Reply Answer)

structure Entry {Op : Type} (Reply : Op → Type) where
  op : Op
  reply : Reply op

abbrev Log {Op : Type} (Reply : Op → Type) := List (Entry Reply)

def Log.Saw (log : Log Reply) (op : Op) (reply : Reply op) : Prop :=
  (⟨op, reply⟩ : Entry Reply) ∈ log

theorem Log.Saw.mono {log later : Log Reply} {op : Op} {reply : Reply op} (saw : log.Saw op reply)
    (grown : log <:+ later) : later.Saw op reply :=
  grown.subset saw

namespace Program

def bind (program : Program Reply Answer) (next : Answer → Program Reply Result) :
    Program Reply Result :=
  match program with
  | .ret answer => next answer
  | .call op rest => .call op fun reply => (rest reply).bind next

instance : Monad (Program Reply) where
  pure := .ret
  bind := bind

theorem bind_assoc {Last : Type} (program : Program Reply Answer) (next : Answer → Program Reply Result)
    (last : Result → Program Reply Last) :
    (program >>= next) >>= last = program >>= fun answer => next answer >>= last := by
  change (program.bind next).bind last = program.bind fun answer => (next answer).bind last
  induction program with
  | ret answer => rfl
  | call op rest ih =>
      simp only [bind]
      exact congrArg (Program.call op) (funext ih)

def perform (op : Op) : Program Reply (Reply op) := .call op .ret

def finished : Program Reply Answer → Bool
  | .ret _ => true
  | .call _ _ => false

/-- `issue log op` is required wherever the program may issue `op` after `log`,
and `done log answer` wherever it may end. Every reply is considered. -/
def Along (issue : Log Reply → Op → Prop) (done : Log Reply → Answer → Prop) :
    Log Reply → Program Reply Answer → Prop
  | log, .ret answer => done log answer
  | log, .call op next => issue log op ∧ ∀ reply, Along issue done (⟨op, reply⟩ :: log) (next reply)

variable {issue issue' : Log Reply → Op → Prop}
variable {done done' : Log Reply → Answer → Prop}

@[simp] theorem along_ret (log : Log Reply) (answer : Answer) :
    Along issue done log (.ret answer) ↔ done log answer := Iff.rfl

@[simp] theorem along_pure (log : Log Reply) (answer : Answer) :
    Along issue done log (pure answer) ↔ done log answer := Iff.rfl

@[simp] theorem along_call (log : Log Reply) (op : Op) (next : Reply op → Program Reply Answer) :
    Along issue done log (.call op next) ↔
      issue log op ∧ ∀ reply, Along issue done (⟨op, reply⟩ :: log) (next reply) := Iff.rfl

theorem along_perform_bind (op : Op) (next : Reply op → Program Reply Result) (log : Log Reply)
    {done : Log Reply → Result → Prop} :
    Along issue done log (perform op >>= next) ↔
      issue log op ∧ ∀ reply, Along issue done (⟨op, reply⟩ :: log) (next reply) := Iff.rfl

/-- A sub-program is followed by whatever its answer selects, on the history it
leaves behind. -/
theorem along_bind (program : Program Reply Answer)
    (next : Answer → Program Reply Result) (log : Log Reply)
    {done : Log Reply → Result → Prop} :
    Along issue done log (program >>= next) ↔
      Along issue (fun log answer => Along issue done log (next answer)) log program := by
  change Along issue done log (program.bind next) ↔ _
  induction program generalizing log with
  | ret answer => exact Iff.rfl
  | call op rest ih =>
      simp only [bind, along_call]
      exact and_congr_right fun _ => forall_congr' fun reply => ih reply _

-- Unfolding would evaluate the branches a program has not reached yet.
attribute [irreducible] Along

theorem Along.mono {program : Program Reply Answer} {log : Log Reply}
    (held : Along issue done log program)
    (issues : ∀ log op, issue log op → issue' log op)
    (ends : ∀ log answer, done log answer → done' log answer) :
    Along issue' done' log program := by
  induction program generalizing log with
  | ret answer =>
      rw [along_ret] at held ⊢
      exact ends _ _ held
  | call op next ih =>
      rw [along_call] at held ⊢
      exact ⟨issues _ _ held.1, fun reply => ih reply (held.2 reply)⟩

theorem Along.and {program : Program Reply Answer} {log : Log Reply}
    (left : Along issue done log program) (right : Along issue' done' log program) :
    Along (fun log op => issue log op ∧ issue' log op)
      (fun log answer => done log answer ∧ done' log answer) log program := by
  induction program generalizing log with
  | ret answer =>
      rw [along_ret] at left right ⊢
      exact ⟨left, right⟩
  | call op next ih =>
      rw [along_call] at left right ⊢
      exact ⟨⟨left.1, right.1⟩, fun reply => ih reply (left.2 reply) (right.2 reply)⟩

theorem along_grows (program : Program Reply Answer) (log : Log Reply) :
    Along (fun _ _ => True) (fun after _ => log <:+ after) log program := by
  suffices ∀ seen, log <:+ seen →
      Along (fun _ _ => True) (fun after _ => log <:+ after) seen program from
    this log (List.suffix_refl log)
  induction program with
  | ret answer =>
      intro seen grown
      rw [along_ret]
      exact grown
  | call op next ih =>
      intro seen grown
      rw [along_call]
      exact ⟨trivial, fun reply => ih reply _ (grown.trans (List.suffix_cons _ _))⟩

-- A property of histories that every operation issued keeps holds throughout.
theorem Along.keeps {program : Program Reply Answer} {log : Log Reply} {held : Log Reply → Prop}
    (along : Along issue done log program) (start : held log)
    (keeps : ∀ log op reply, issue log op → held log → held (⟨op, reply⟩ :: log)) :
    Along (fun log _ => held log) (fun after answer => done after answer ∧ held after) log program := by
  induction program generalizing log with
  | ret answer =>
      rw [along_ret] at along ⊢
      exact ⟨along, start⟩
  | call op next ih =>
      rw [along_call] at along ⊢
      exact ⟨start, fun reply => ih reply (along.2 reply) (keeps log op reply along.1 start)⟩

/-- Under some replies the program comes to issue a `bad` operation. -/
def May (bad : Op → Prop) : Program Reply Answer → Prop
  | .ret _ => False
  | .call op next => bad op ∨ ∃ reply, (next reply).May bad

theorem May.mono {program : Program Reply Answer} {bad worse : Op → Prop} (may : program.May bad)
    (weaker : ∀ op, bad op → worse op) : program.May worse := by
  induction program with
  | ret answer => exact may
  | call op next ih =>
      rcases may with now | ⟨reply, later⟩
      · exact .inl (weaker op now)
      · exact .inr ⟨reply, ih reply later⟩

-- What a program may issue it issues after a history that warrants it.
theorem Along.may {program : Program Reply Answer} {log : Log Reply} {bad : Op → Prop}
    (along : Along issue done log program) (may : program.May bad) :
    ∃ after op, log <:+ after ∧ bad op ∧ issue after op := by
  induction program generalizing log with
  | ret answer => exact may.elim
  | call op next ih =>
      rw [along_call] at along
      rcases may with now | ⟨reply, later⟩
      · exact ⟨log, op, List.suffix_refl log, now, along.1⟩
      · obtain ⟨after, issued, grown, is_bad, warrant⟩ := ih reply (along.2 reply) later
        exact ⟨after, issued, (List.suffix_cons _ _).trans grown, is_bad, warrant⟩

theorem May.of_finished {program : Program Reply Answer} {bad : Op → Prop}
    (ended : program.finished = true) : ¬ program.May bad := by
  cases program with
  | ret answer => exact id
  | call op next => cases ended

-- A sub-program used through its own history triple.
theorem Along.sequence {program : Program Reply Answer} {next : Answer → Program Reply Result}
    {log : Log Reply} {ended : Log Reply → Result → Prop}
    (held : Along issue done log program)
    (rest : ∀ after answer, log <:+ after → done after answer → Along issue ended after (next answer)) :
    Along issue ended log (program >>= next) := by
  rw [along_bind]
  exact (held.and (along_grows program log)).mono (fun _ _ both => both.1)
    fun after answer both => rest after answer both.2 both.1

end Program
end Interleaving
