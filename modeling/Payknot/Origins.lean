import Payknot.Embedding

/-! Where things come from: what a program can perform, whatever it is answered; what a thread
keeps of what it has seen; and the rows of a table, each put there by an operation that some
thread has performed. -/
namespace Interleaving
open Machine

variable {Part Op : Type} {Reply : Op → Type} {inject : Part → Op}
variable {World Choice Event Request Answer : Type}

-- What feeds a program feeds it as a part of a larger one.
theorem Follows.lift (inject : Part → Op) {program : Program (fun part => Reply (inject part)) Answer}
    {log later : Log fun part => Reply (inject part)} {answer : Answer} (follows : Follows program log answer later) :
    Follows (program.lift inject) (log.map (Entry.lift inject)) answer (later.map (Entry.lift inject)) := by
  induction follows with
  | ret answer log => exact .ret answer _
  | call _ ih => exact .call ih

/-- What a part runs alone the whole runs, where the whole performs its operations alike. -/
theorem Traces.lift {PartWorld : Type} (inject : Part → Op) (embed : PartWorld → World) {kept : PartWorld → Prop}
    {perform : Performing (fun part => Reply (inject part)) PartWorld} {perform' : Performing Reply World}
    {program : Program (fun part => Reply (inject part)) Answer} {w after : PartWorld}
    {log later : Log fun part => Reply (inject part)} {answer : Answer}
    (traced : Traces perform program w log answer after later) (start : kept w)
    (alike : ∀ part w reply after, kept w → perform part w reply after →
      kept after ∧ perform' (inject part) (embed w) reply (embed after)) :
    kept after ∧ Traces perform' (program.lift inject) (embed w) (log.map (Entry.lift inject)) answer (embed after)
      (later.map (Entry.lift inject)) := by
  induction traced with
  | ret answer w log => exact ⟨start, .ret answer _ _⟩
  | call performed _ ih =>
      obtain ⟨kept, performed⟩ := alike _ _ _ _ start performed
      obtain ⟨kept, rest⟩ := ih kept
      exact ⟨kept, .call performed rest⟩

-- All a program performs it performs after what was there before.
theorem along_since (program : Program Reply Answer) {before log : Log Reply} (grown : before <:+ log) :
    program.Along (fun log _ => before <:+ log) (fun after _ => before <:+ after) log := by
  have kept : program.Along (fun log _ => before <:+ log) (fun after _ => True ∧ before <:+ after) log :=
    (Program.along_any program log).keeps grown fun _ _ _ _ since => since.trans (List.suffix_cons _ _)
  exact kept.mono (fun _ _ since => since) fun _ _ both => both.2

section Kinds
variable {Result : Type} {kind kind' : Op → Prop}

/-- Whatever it is answered, the program performs operations of one kind. -/
def Within (kind : Op → Prop) (program : Program Reply Answer) : Prop :=
  ∀ log, program.Along (fun _ op => kind op) (fun _ _ => True) log

namespace Within

theorem pure (answer : Answer) : Within kind (Pure.pure answer : Program Reply Answer) := fun _ => by simp

theorem bind {program : Program Reply Answer} {next : Answer → Program Reply Result}
    (first : Within kind program) (rest : ∀ answer, Within kind (next answer)) : Within kind (program >>= next) :=
  fun log => (first log).sequence fun after answer _ _ => rest answer after

theorem perform {op : Op} (is_kind : kind op) : Within kind (Program.perform op : Program Reply (Reply op)) := by
  intro log
  simp [Program.perform, is_kind]

theorem mono {program : Program Reply Answer} (within : Within kind program)
    (weaker : ∀ op, kind op → kind' op) : Within kind' program :=
  fun log => (within log).mono (fun _ op is_kind => weaker op is_kind) fun _ _ _ => trivial

theorem lift {program : Program (fun part => Reply (inject part)) Answer}
    (within : Within (fun part => kind (inject part)) program) : Within kind (program.lift inject) := by
  intro log
  refine ((within []).lift inject log).mono ?_ fun _ _ _ => trivial
  rintro _ _ ⟨part, _, rfl, _, is_kind⟩
  exact is_kind

-- A part all of whose operations are of the kind.
theorem part (inject : Part → Op) (all : ∀ part, kind (inject part))
    (program : Program (fun part => Reply (inject part)) Answer) : Within kind (program.lift inject) :=
  .lift fun log => (Program.along_any program log).mono (fun _ part _ => all part) fun _ _ _ => trivial

-- What such a program has done when it answers.
theorem tracks {program : Program Reply Answer} (within : Within kind program) {issue : Log Reply → Op → Prop}
    (weaker : ∀ log op, kind op → issue log op) (log : Log Reply) :
    program.Along issue (fun after answer => log <:+ after ∧ Follows program log answer after) log := by
  have both := ((within log).and (along_since program (List.suffix_refl log))).and (along_follows program log)
  exact both.mono (fun log op held => weaker log op held.1.1) fun _ _ held => ⟨held.1.2, held.2⟩

end Within
end Kinds

section Rows
variable {M : Machine Reply World Choice Event Request Answer}
variable {allowed : Config Reply World Request Answer → Label Choice Event Request → Prop}
variable {first last : Config Reply World Request Answer}

-- No run forgets a thread, its request or anything it has seen.
theorem Machine.Reaches.thread_since (run : M.Reaches allowed first last) {index : Nat}
    {thread : Thread Reply Request Answer} (found : first.threads[index]? = some thread) :
    ∃ current, last.threads[index]? = some current ∧ current.request = thread.request ∧
      thread.log <:+ current.log := by
  induction run with
  | refl => exact ⟨thread, found, rfl, List.suffix_refl _⟩
  | tail label run meets stepped ih =>
      obtain ⟨middle, found, request, grown⟩ := ih
      obtain ⟨current, found, request', grown'⟩ := thread_kept stepped found
      exact ⟨current, found, request'.trans request, grown.trans grown'⟩

/-- A table whose rows come from operations: an operation leaves rows that were there, perhaps
changed in what does not matter for their origin, and rows it is the origin of. -/
structure Table (M : Machine Reply World Choice Event Request Answer) (Row : Type) where
  rows : World → List Row
  origin : Entry Reply → Row → Prop
  performed : ∀ {choice op w reply after}, M.exec choice op w = some (reply, after) → ∀ row ∈ rows after,
    (∃ old ∈ rows w, ∀ entry, origin entry old → origin entry row) ∨ origin ⟨op, reply⟩ row
  occurred : ∀ {event w after}, M.occur event w = some after → rows after = rows w

variable {Row : Type} (table : Table M Row)

def Table.Accounted (cfg : Config Reply World Request Answer) : Prop :=
  ∀ row ∈ table.rows cfg.world, ∃ thread ∈ cfg.threads, ∃ entry ∈ thread.log, table.origin entry row

variable {table}

theorem Table.Accounted.next {cfg after : Config Reply World Request Answer} {label : Label Choice Event Request}
    (accounted : table.Accounted cfg) (stepped : M.next cfg label = some after) : table.Accounted after := by
  have kept {row : Row} (member : row ∈ table.rows cfg.world) :
      ∃ thread ∈ after.threads, ∃ entry ∈ thread.log, table.origin entry row := by
    obtain ⟨thread, present, entry, among, origin⟩ := accounted row member
    obtain ⟨index, found⟩ := List.mem_iff_getElem?.mp present
    obtain ⟨current, found', _, grown⟩ := thread_kept stepped found
    exact ⟨current, List.mem_of_getElem? found', entry, grown.subset among, origin⟩
  intro row member
  rcases next_cases stepped with ⟨_, _, same⟩ | ⟨event, world, _, occurred, same⟩ |
    ⟨index, choice, thread, op, rest, reply, world, _, at_index, program, executed, same⟩
  · rw [same] at member
    exact kept member
  · rw [same] at member
    rw [table.occurred occurred] at member
    exact kept member
  · have world : after.world = world := by rw [same]
    rw [world] at member
    rcases table.performed executed row member with ⟨old, among, carried⟩ | origin
    · obtain ⟨thread, present, entry, seen, origin⟩ := kept among
      exact ⟨thread, present, entry, seen, carried entry origin⟩
    · have inside := (List.getElem?_eq_some_iff.mp at_index).1
      refine ⟨thread.resumed op reply rest, ?_, ⟨op, reply⟩, List.mem_cons_self, origin⟩
      rw [same]
      exact List.mem_of_getElem? (List.getElem?_set_self inside)

-- In a run that begins with an empty table every row has its origin in the run.
theorem Machine.Reaches.accounted (run : M.Reaches allowed first last) (empty : table.rows first.world = []) :
    table.Accounted last := by
  apply run.invariant table.Accounted _ fun _ _ _ accounted _ stepped => accounted.next stepped
  intro row member
  rw [empty] at member
  cases member

variable (table)

-- What a thread has found in the table was put there by a thread.
theorem Machine.Reaches.found_origin (selected : Row → Prop) (run : M.Reaches allowed first last)
    (start : first.threads = []) (empty : table.rows first.world = []) {thread : Thread Reply Request Answer}
    (member : thread ∈ last.threads) {op : Op} {reply : Reply op} (saw : thread.log.Saw op reply)
    (selects : ∀ {choice w after}, M.exec choice op w = some (reply, after) → ∃ row ∈ table.rows w, selected row) :
    ∃ row, selected row ∧ ∃ opener ∈ last.threads, ∃ entry ∈ opener.log, table.origin entry row := by
  obtain ⟨index, found⟩ := List.mem_iff_getElem?.mp member
  have late : first.threads.length ≤ index := by
    rw [start]
    exact Nat.zero_le index
  obtain ⟨middle, _, after, choice, before, stepped, executed, since⟩ := run.any.performed late found saw
  obtain ⟨row, listed, is_selected⟩ := selects executed
  obtain ⟨opener, present, entry, among, origin⟩ := before.accounted empty row listed
  obtain ⟨place, at_place⟩ := List.mem_iff_getElem?.mp present
  have onwards := (Machine.Reaches.tail _ (.refl middle) trivial stepped).trans since
  obtain ⟨current, here, _, grown⟩ := onwards.thread_since at_place
  exact ⟨row, is_selected, current, List.mem_of_getElem? here, entry, grown.subset among, origin⟩

end Rows

section Parts
variable {M : Machine Reply World Choice Event Request Answer} {PartWorld PartChoice Row : Type}
variable {exec : PartChoice → (part : Part) → PartWorld → Option (Reply (inject part) × PartWorld)}

/-- The whole touches a part of its world by the part's own operations, which find it as `onset`
has it. -/
structure Embeds (M : Machine Reply World Choice Event Request Answer) (inject : Part → Op)
    (exec : PartChoice → (part : Part) → PartWorld → Option (Reply (inject part) × PartWorld))
    (view onset : World → PartWorld) : Prop where
  performed : ∀ {choice op w reply after}, M.exec choice op w = some (reply, after) →
    view after = view w ∨ ∃ part answer choice', (⟨op, reply⟩ : Entry Reply) = ⟨inject part, answer⟩ ∧
      exec choice' part (onset w) = some (answer, view after)
  occurred : ∀ {event w after}, M.occur event w = some after → view after = view w

def Table.part {view onset : World → PartWorld} (embeds : Embeds M inject exec view onset)
    (rows : PartWorld → List Row) (origin : Entry (fun part => Reply (inject part)) → Row → Prop)
    (same : ∀ w, rows (onset w) = rows (view w))
    (performed : ∀ {choice part w reply after}, exec choice part w = some (reply, after) → ∀ row ∈ rows after,
      (∃ old ∈ rows w, ∀ entry, origin entry old → origin entry row) ∨ origin ⟨part, reply⟩ row) :
    Table M Row where
  rows w := rows (view w)
  origin entry row := ∃ own, entry = Entry.lift inject own ∧ origin own row
  performed := by
    intro choice op w reply after executed row member
    rcases embeds.performed executed with unchanged | ⟨part, answer, _, entry, ran⟩
    · rw [unchanged] at member
      exact .inl ⟨row, member, fun _ origin => origin⟩
    · rcases performed ran row member with ⟨old, among, carried⟩ | origin
      · rw [same] at among
        refine .inl ⟨old, among, ?_⟩
        rintro _ ⟨own, rfl, origin⟩
        exact ⟨own, rfl, carried own origin⟩
      · exact .inr ⟨⟨part, answer⟩, entry, origin⟩
  occurred := by
    intro event w after occurred
    exact congrArg rows (embeds.occurred occurred)

end Parts
end Interleaving
