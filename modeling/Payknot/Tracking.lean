import Payknot.Serial

/-! The weakest precondition of a complete run over the world and the program's own
history: what its end leaves behind is compared with what its operations were answered. -/
namespace Interleaving

variable {Op : Type} {Reply : Op → Type} {World Answer Result : Type}

/-- Wherever a run from `w` after `log` ends, it ends with `post`. -/
def Program.Tracks (perform : Performing Reply World) (post : Answer → World → Log Reply → Prop) :
    Program Reply Answer → World → Log Reply → Prop
  | .ret answer, w, log => post answer w log
  | .call op next, w, log => ∀ reply middle, perform op w reply middle →
      (next reply).Tracks perform post middle (⟨op, reply⟩ :: log)

theorem Traces.grows {perform : Performing Reply World} {program : Program Reply Answer} {w after : World}
    {log later : Log Reply} {answer : Answer} (traced : Traces perform program w log answer after later) :
    log <:+ later := by
  induction traced with
  | ret answer w log => exact List.suffix_refl log
  | call _ _ ih => exact (List.suffix_cons _ _).trans ih

namespace Program
variable {perform : Performing Reply World} {post post' : Answer → World → Log Reply → Prop}

theorem tracks_ret (answer : Answer) (w : World) (log : Log Reply) :
    Tracks perform post (.ret answer : Program Reply Answer) w log ↔ post answer w log := Iff.rfl

theorem tracks_pure (answer : Answer) (w : World) (log : Log Reply) :
    Tracks perform post (pure answer : Program Reply Answer) w log ↔ post answer w log := Iff.rfl

theorem tracks_call (op : Op) (next : Reply op → Program Reply Answer) (w : World) (log : Log Reply) :
    Tracks perform post (.call op next) w log ↔ ∀ reply middle, perform op w reply middle →
      Tracks perform post (next reply) middle (⟨op, reply⟩ :: log) := Iff.rfl

theorem tracks_perform_bind (op : Op) (next : Reply op → Program Reply Result) (w : World) (log : Log Reply)
    {post : Result → World → Log Reply → Prop} :
    Tracks perform post (Program.perform op >>= next) w log ↔ ∀ reply middle, perform op w reply middle →
      Tracks perform post (next reply) middle (⟨op, reply⟩ :: log) := Iff.rfl

theorem tracks_bind (program : Program Reply Answer) (next : Answer → Program Reply Result) (w : World)
    (log : Log Reply) {post : Result → World → Log Reply → Prop} :
    Tracks perform post (program >>= next) w log ↔
      Tracks perform (fun answer middle seen => Tracks perform post (next answer) middle seen) program w log := by
  change Tracks perform post (program.bind next) w log ↔ _
  induction program generalizing w log with
  | ret answer => exact Iff.rfl
  | call op rest ih =>
      simp only [bind, Tracks]
      exact forall_congr' fun reply => forall_congr' fun middle => imp_congr_right fun _ => ih reply middle _

-- Unfolding would evaluate the branches a program has not reached yet.
attribute [irreducible] Tracks

theorem Tracks.mono {program : Program Reply Answer} {w : World} {log : Log Reply}
    (held : Tracks perform post program w log)
    (weaker : ∀ answer after later, post answer after later → post' answer after later) :
    Tracks perform post' program w log := by
  induction program generalizing w log with
  | ret answer =>
      rw [tracks_ret] at held ⊢
      exact weaker _ _ _ held
  | call op next ih =>
      rw [tracks_call] at held ⊢
      exact fun reply middle performed => ih reply (held reply middle performed)

-- The rule for a sub-program that is known by what it leaves behind.
theorem Tracks.sequence {program : Program Reply Answer} {next : Answer → Program Reply Result} {w : World}
    {log : Log Reply} {ended : Result → World → Log Reply → Prop} (held : Tracks perform post program w log)
    (rest : ∀ answer middle seen, post answer middle seen → Tracks perform ended (next answer) middle seen) :
    Tracks perform ended (program >>= next) w log := by
  rw [tracks_bind]
  exact held.mono rest

theorem Tracks.traces {program : Program Reply Answer} {w after : World} {log later : Log Reply} {answer : Answer}
    (held : Tracks perform post program w log) (traced : Traces perform program w log answer after later) :
    post answer after later := by
  induction traced with
  | ret answer w log => rwa [tracks_ret] at held
  | call performed _ ih =>
      rw [tracks_call] at held
      exact ih (held _ _ performed)

/-- What every operation of a program keeps is kept by the program, and its history shows
which operations those were. -/
theorem Along.tracks {quiet : Op → Prop} (kept : World → World → Prop) {done : Log Reply → Answer → Prop}
    {program : Program Reply Answer} {w : World} {log : Log Reply}
    (along : program.Along (fun _ op => quiet op) done log) (refl : ∀ w, kept w w)
    (trans : ∀ {w middle after}, kept w middle → kept middle after → kept w after)
    (unmoved : ∀ op w reply after, quiet op → perform op w reply after → kept w after) :
    Tracks perform (fun answer after later => kept w after ∧ done later answer ∧
      ∃ seen, later = seen ++ log ∧ ∀ entry ∈ seen, quiet entry.op) program w log := by
  induction program generalizing w log with
  | ret answer =>
      rw [along_ret] at along
      rw [tracks_ret]
      exact ⟨refl w, along, [], rfl, by simp⟩
  | call op next ih =>
      rw [along_call] at along
      rw [tracks_call]
      intro reply middle performed
      have first := unmoved op w reply middle along.1 performed
      refine (ih reply (along.2 reply)).mono ?_
      rintro answer after later ⟨rest, ended, seen, rfl, quiet_seen⟩
      refine ⟨trans first rest, ended, seen ++ [⟨op, reply⟩], by simp, fun entry member => ?_⟩
      rcases List.mem_append.mp member with newer | oldest
      · exact quiet_seen entry newer
      · rw [List.mem_singleton] at oldest
        subst oldest
        exact along.1

end Program
end Interleaving
