import Payknot.Origins
import Mathlib.Logic.Function.Basic

/-! A machine inside a larger one. The larger machine's programs touch a part's store only by
serving the part's requests; then every run of the whole is, for the part, one of the part's
own runs, and what the part answers there is what the whole was told. -/
namespace Interleaving
open Machine

variable {Part Op : Type} {Reply : Op → Type} {inject : Part → Op}
variable {World Choice Event Request Answer : Type}
variable {PartWorld PartChoice PartEvent PartRequest PartAnswer : Type}

section Delegation
variable (inject) (serve : PartRequest → Program (fun part => Reply (inject part)) PartAnswer)
variable (aside : Op → Prop) (asks : PartRequest → Prop)
variable (ends : List (PartRequest × PartAnswer) → Answer → Prop)

/-- Programs that leave the part alone but for serving its requests; `served` is what these
have been answered, latest first. -/
inductive Delegates : List (PartRequest × PartAnswer) → Program Reply Answer → Prop where
  | ret {served : List (PartRequest × PartAnswer)} {answer : Answer} (done : ends served answer) :
      Delegates served (.ret answer)
  | call {served : List (PartRequest × PartAnswer)} {op : Op} {next : Reply op → Program Reply Answer}
      (apart : aside op) (rest : ∀ reply, Delegates served (next reply)) : Delegates served (.call op next)
  | serve {served : List (PartRequest × PartAnswer)} {request : PartRequest}
      {next : PartAnswer → Program Reply Answer} (asked : asks request)
      (rest : ∀ answer, Delegates ((request, answer) :: served) (next answer)) :
      Delegates served ((serve request).lift inject >>= next)

variable {inject serve aside asks ends}
variable {served : List (PartRequest × PartAnswer)} {Result : Type}

theorem Delegates.perform {op : Op} {next : Reply op → Program Reply Answer} (apart : aside op)
    (rest : ∀ reply, Delegates inject serve aside asks ends served (next reply)) :
    Delegates inject serve aside asks ends served (Program.perform op >>= next) :=
  .call apart rest

/-- A program over this or another part may come first where it leaves the part alone. -/
theorem Delegates.lifted {Other : Type} {inject' : Other → Op}
    {program : Program (fun part => Reply (inject' part)) Result} {next : Result → Program Reply Answer}
    {log : Log fun part => Reply (inject' part)}
    (quiet : program.Along (fun _ part => aside (inject' part)) (fun _ _ => True) log)
    (rest : ∀ result, Delegates inject serve aside asks ends served (next result)) :
    Delegates inject serve aside asks ends served (program.lift inject' >>= next) := by
  change Delegates inject serve aside asks ends served ((program.lift inject').bind next)
  induction program generalizing log with
  | ret result => exact rest result
  | call part following ih =>
      rw [Program.along_call] at quiet
      exact .call quiet.1 fun reply => ih reply (quiet.2 reply)

theorem Delegates.elsewhere {Other : Type} {inject' : Other → Op} (apart : ∀ part, aside (inject' part))
    (program : Program (fun part => Reply (inject' part)) Result) {next : Result → Program Reply Answer}
    (rest : ∀ result, Delegates inject serve aside asks ends served (next result)) :
    Delegates inject serve aside asks ends served (program.lift inject' >>= next) :=
  .lifted ((Program.along_any program []).mono (fun _ part _ => apart part) fun _ _ _ => trivial) rest

end Delegation

def Spares (whole : Machine Reply World Choice Event Request Answer) (view : World → PartWorld) (op : Op) : Prop :=
  ∀ choice w reply after, whole.exec choice op w = some (reply, after) → view after = view w

/-- How a part lies in the whole: its store is a view of the whole's, its operations and
events are among the whole's, and the whole's handlers delegate to it. -/
structure Component (inject : Part → Op) (whole : Machine Reply World Choice Event Request Answer)
    (part : Machine (fun op => Reply (inject op)) PartWorld PartChoice PartEvent PartRequest PartAnswer) where
  view : World → PartWorld
  asks : Request → PartRequest → Prop
  ends : Request → List (PartRequest × PartAnswer) → Answer → Prop
  exec : ∀ {choice op w reply after}, whole.exec choice (inject op) w = some (reply, after) →
    ∃ choice, part.exec choice op (view w) = some (reply, view after)
  occur : ∀ {event w after}, whole.occur event w = some after → view after = view w ∨
    ∃ event, part.occur event (view w) = some (view after)
  delegates : ∀ request, Delegates inject part.handler (Spares whole view) (asks request) (ends request) []
    (whole.handler request)

namespace Component
variable {whole : Machine Reply World Choice Event Request Answer}
variable {part : Machine (fun op => Reply (inject op)) PartWorld PartChoice PartEvent PartRequest PartAnswer}
variable (c : Component inject whole part)

def Answered (shown : Config (fun op => Reply (inject op)) PartWorld PartRequest PartAnswer)
    (pair : PartRequest × PartAnswer) : Prop :=
  ∃ (index : Nat) (thread : Thread (fun op => Reply (inject op)) PartRequest PartAnswer),
    shown.threads[index]? = some thread ∧ thread.request = pair.1 ∧ thread.program = .ret pair.2

/-- Steps of the part: what arrives has been asked by a request of the whole, and each starts
in a store that `visited` holds of. -/
def Asked (visited : PartWorld → Prop) (shown : Config (fun op => Reply (inject op)) PartWorld PartRequest PartAnswer)
    (label : Label PartChoice PartEvent PartRequest) : Prop :=
  visited shown.world ∧ ∀ request, label = .arrive request → ∃ asking, c.asks asking request

/-- Where a thread of the whole stands: at its end, before an operation that spares the part,
or in the midst of a request that the part's thread at `place` serves. -/
inductive Standing (shown : Config (fun op => Reply (inject op)) PartWorld PartRequest PartAnswer)
    (request : Request) (program : Program Reply Answer) : Option Nat → Prop where
  | ended {served answer} (answered : ∀ pair ∈ served, Answered shown pair) (same : program = .ret answer)
      (done : c.ends request served answer) : Standing shown request program none
  | aside {served op next} (answered : ∀ pair ∈ served, Answered shown pair) (same : program = .call op next)
      (spares : Spares whole c.view op)
      (rest : ∀ reply, Delegates inject part.handler (Spares whole c.view) (c.asks request) (c.ends request) served
        (next reply)) : Standing shown request program none
  | serving {served place thread op rest next} (answered : ∀ pair ∈ served, Answered shown pair)
      (found : shown.threads[place]? = some thread) (busy : thread.program = .call op rest)
      (same : program = thread.program.lift inject >>= next)
      (following : ∀ answer, Delegates inject part.handler (Spares whole c.view) (c.asks request) (c.ends request)
        ((thread.request, answer) :: served) (next answer)) : Standing shown request program (some place)

variable {c} {visited : PartWorld → Prop} {request : Request} {program : Program Reply Answer}
variable {served : List (PartRequest × PartAnswer)}
variable {shown later : Config (fun op => Reply (inject op)) PartWorld PartRequest PartAnswer}

section Part

theorem Answered.mono {pair : PartRequest × PartAnswer} (answered : Answered shown pair)
    (grown : shown.threads <+: later.threads) : Answered later pair := by
  obtain ⟨index, thread, found, rest⟩ := answered
  obtain ⟨more, same⟩ := grown
  refine ⟨index, thread, ?_, rest⟩
  rw [← same, List.getElem?_append_left (List.getElem?_eq_some_iff.mp found).1, found]

theorem Standing.mono {place : Option Nat} (standing : c.Standing shown request program place)
    (grown : shown.threads <+: later.threads) : c.Standing later request program place := by
  cases standing with
  | ended answered same done => exact .ended (fun pair member => (answered pair member).mono grown) same done
  | aside answered same spares rest =>
      exact .aside (fun pair member => (answered pair member).mono grown) same spares rest
  | serving answered found busy same following =>
      obtain ⟨more, threads⟩ := grown
      refine .serving (fun pair member => (answered pair member).mono ⟨more, threads⟩) ?_ busy same following
      rw [← threads, List.getElem?_append_left (List.getElem?_eq_some_iff.mp found).1, found]

theorem Answered.set {pair : PartRequest × PartAnswer} (answered : Answered shown pair) {place : Nat}
    {thread current : Thread (fun op => Reply (inject op)) PartRequest PartAnswer} {op : Part}
    {rest : Reply (inject op) → Program (fun op => Reply (inject op)) PartAnswer}
    (found : shown.threads[place]? = some thread) (busy : thread.program = .call op rest)
    (threads : later.threads = shown.threads.set place current) : Answered later pair := by
  obtain ⟨index, other, at_index, same, ended⟩ := answered
  refine ⟨index, other, ?_, same, ended⟩
  have elsewhere : place ≠ index := by
    rintro rfl
    cases found.symm.trans at_index
    cases busy.symm.trans ended
  rw [threads, List.getElem?_set_ne elsewhere, at_index]

-- A step of one thread of the part is felt by the thread it serves only.
theorem Standing.set {standing : Option Nat} (stands : c.Standing shown request program standing) {place : Nat}
    {thread current : Thread (fun op => Reply (inject op)) PartRequest PartAnswer} {op : Part}
    {rest : Reply (inject op) → Program (fun op => Reply (inject op)) PartAnswer}
    (found : shown.threads[place]? = some thread) (busy : thread.program = .call op rest)
    (threads : later.threads = shown.threads.set place current) (elsewhere : standing ≠ some place) :
    c.Standing later request program standing := by
  cases stands with
  | ended answered same done =>
      exact .ended (fun pair member => (answered pair member).set found busy threads) same done
  | aside answered same spares rest =>
      exact .aside (fun pair member => (answered pair member).set found busy threads) same spares rest
  | serving answered here stepping same following =>
      refine .serving (fun pair member => (answered pair member).set found busy threads) ?_ stepping same following
      rw [threads, List.getElem?_set_ne fun same => elsewhere (congrArg some same.symm), here]

/-- The part's requests that a program comes to next have arrived: some may be answered at
once, and the program then stands somewhere. -/
theorem engaged (delegates : Delegates inject part.handler (Spares whole c.view) (c.asks request) (c.ends request)
      served program) (seen : visited shown.world) (answered : ∀ pair ∈ served, Answered shown pair) :
    ∃ later place, part.Reaches (c.Asked visited) shown later ∧ later.world = shown.world ∧
      shown.threads <+: later.threads ∧ c.Standing later request program place ∧
      ∀ index, place = some index → shown.threads.length ≤ index ∧ index < later.threads.length := by
  induction delegates generalizing shown with
  | ret done => exact ⟨shown, none, .refl _, rfl, List.prefix_rfl, .ended answered rfl done, nofun⟩
  | call spares rest => exact ⟨shown, none, .refl _, rfl, List.prefix_rfl, .aside answered rfl spares rest, nofun⟩
  | @serve served asked next asks rest ih =>
      let arrived : Config (fun op => Reply (inject op)) PartWorld PartRequest PartAnswer :=
        ⟨shown.world, shown.threads ++ [⟨asked, [], part.handler asked⟩]⟩
      have grown : shown.threads <+: arrived.threads := List.prefix_append _ _
      have arrives : part.Reaches (c.Asked visited) shown arrived :=
        .tail (.arrive asked) (.refl _) ⟨seen, fun _ same => ⟨request, by cases same; exact asks⟩⟩ rfl
      have found : arrived.threads[shown.threads.length]? = some ⟨asked, [], part.handler asked⟩ := by
        simp [arrived]
      have kept : ∀ pair ∈ served, Answered arrived pair := fun pair member => (answered pair member).mono grown
      cases handles : part.handler asked with
      | ret answer =>
          rw [handles] at found
          obtain ⟨last, place, run, world, more, standing, new⟩ := @ih answer arrived seen (by
            intro pair member
            rcases List.mem_cons.mp member with rfl | member
            · exact ⟨_, _, found, rfl, rfl⟩
            · exact kept pair member)
          refine ⟨last, place, arrives.trans run, world, grown.trans more, standing, fun index same => ?_⟩
          have bounds := new index same
          exact ⟨Nat.le_trans grown.length_le bounds.1, bounds.2⟩
      | call op following =>
          refine ⟨arrived, some shown.threads.length, arrives, rfl, grown,
            .serving kept found handles (by rw [← handles]) rest, ?_⟩
          rintro _ ⟨⟩
          exact ⟨Nat.le_refl _, by simp [arrived]⟩

end Part

/-- A state of the part shows a state of the whole: the stores agree, and each thread of the
whole stands somewhere, two never at one place. -/
structure Represents (c : Component inject whole part) (cfg : Config Reply World Request Answer)
    (shown : Config (fun op => Reply (inject op)) PartWorld PartRequest PartAnswer)
    (place : Nat → Option Nat) : Prop where
  world : shown.world = c.view cfg.world
  standing : ∀ (index : Nat) (thread : Thread Reply Request Answer), cfg.threads[index]? = some thread →
    c.Standing shown thread.request thread.program (place index)
  apart : ∀ i j index, place i = some index → place j = some index → i = j
  inside : ∀ i index, place i = some index → index < shown.threads.length

variable {cfg after : Config Reply World Request Answer} {label : Label Choice Event Request} {place : Nat → Option Nat}

/-- One thread of the whole goes on with a program that delegates; the others stand. -/
theorem Represents.goes_on {middle : Config (fun op => Reply (inject op)) PartWorld PartRequest PartAnswer}
    (apart : ∀ i j index, place i = some index → place j = some index → i = j)
    (inside : ∀ i index, place i = some index → index < middle.threads.length)
    (world : middle.world = c.view cfg.world) (seen : visited middle.world) {index : Nat}
    {thread : Thread Reply Request Answer} (found : cfg.threads[index]? = some thread)
    (answered : ∀ pair ∈ served, Answered middle pair)
    (delegates : Delegates inject part.handler (Spares whole c.view) (c.asks thread.request) (c.ends thread.request)
      served thread.program)
    (others : ∀ (other : Nat) (thread : Thread Reply Request Answer), other ≠ index →
      cfg.threads[other]? = some thread → c.Standing middle thread.request thread.program (place other)) :
    ∃ later place, part.Reaches (c.Asked visited) middle later ∧ Represents c cfg later place := by
  obtain ⟨later, here, run, same, grown, standing, new⟩ := engaged delegates seen answered
  refine ⟨later, Function.update place index here, run, same.trans world, ?_, ?_, ?_⟩
  · intro other current at_other
    by_cases is : other = index
    · subst is
      cases found.symm.trans at_other
      rw [Function.update_self]
      exact standing
    · rw [Function.update_of_ne is]
      exact (others other current is at_other).mono grown
  · intro i j at_place first second
    by_cases is : i = index <;> by_cases js : j = index
    · exact is.trans js.symm
    · subst is
      rw [Function.update_self] at first
      rw [Function.update_of_ne js] at second
      exact absurd (inside j _ second) (Nat.not_lt.mpr (new _ first).1)
    · subst js
      rw [Function.update_of_ne is] at first
      rw [Function.update_self] at second
      exact absurd (inside i _ first) (Nat.not_lt.mpr (new _ second).1)
    · rw [Function.update_of_ne is] at first
      rw [Function.update_of_ne js] at second
      exact apart i j _ first second
  · intro i at_place same
    by_cases is : i = index
    · subst is
      rw [Function.update_self] at same
      exact (new _ same).2
    · rw [Function.update_of_ne is] at same
      exact Nat.lt_of_lt_of_le (inside i _ same) grown.length_le

-- Every step of the whole is matched: by steps of the part, or by none.
theorem Represents.next (held : Represents c cfg shown place) (seen : visited (c.view cfg.world))
    (seen_after : visited (c.view after.world)) (stepped : whole.next cfg label = some after) :
    ∃ later place, part.Reaches (c.Asked visited) shown later ∧ Represents c after later place := by
  have seen_shown : visited shown.world := by
    rw [held.world]
    exact seen
  rcases next_cases stepped with ⟨request, rfl, rfl⟩ | ⟨event, world, rfl, occurred, rfl⟩ |
    ⟨index, choice, thread, op, rest, reply, world, rfl, found, program, executed, rfl⟩
  · have newest : (cfg.threads ++ [⟨request, [], whole.handler request⟩])[cfg.threads.length]? =
        some ⟨request, [], whole.handler request⟩ := by simp
    refine goes_on held.apart held.inside held.world seen_shown newest
      (fun _ member => absurd member List.not_mem_nil) (c.delegates request) fun other thread is at_other => held.standing other thread ?_
    have bound := (List.getElem?_eq_some_iff.mp at_other).1
    rw [List.length_append, List.length_singleton] at bound
    rwa [List.getElem?_append_left (by omega)] at at_other
  · rcases c.occur occurred with same | ⟨event, occurs⟩
    · exact ⟨shown, place, .refl _, held.world.trans same.symm, held.standing, held.apart, held.inside⟩
    · refine ⟨{ shown with world := c.view world }, place,
        .tail (.event event) (.refl _) ⟨seen_shown, fun _ same => by cases same⟩ (by simp [Machine.next, held.world, occurs]), rfl,
        fun index thread found => (held.standing index thread found).mono List.prefix_rfl, held.apart, held.inside⟩
  · have inside := (List.getElem?_eq_some_iff.mp found).1
    have now_here := List.getElem?_set_self (a := thread.resumed op reply rest) inside
    have earlier {other : Nat} {current : Thread Reply Request Answer} (is : other ≠ index)
        (at_other : (cfg.threads.set index (thread.resumed op reply rest))[other]? = some current) :
        c.Standing shown current.request current.program (place other) := by
      rw [List.getElem?_set_ne (Ne.symm is)] at at_other
      exact held.standing other current at_other
    have standing := held.standing index thread found
    cases at_place : place index with
    | none =>
        rw [at_place] at standing
        cases standing with
        | ended answered same done => cases program.symm.trans same
        | aside answered same spares rest =>
            cases program.symm.trans same
            have world : shown.world = c.view world := held.world.trans (spares _ _ _ _ executed).symm
            exact goes_on held.apart held.inside world seen_shown now_here answered (rest reply)
              fun other thread is at_other => earlier is at_other
    | some index' =>
        rw [at_place] at standing
        cases standing with
        | @serving served _ serving part_op part_rest next answered here busy same following =>
            rw [program, busy] at same
            cases same
            obtain ⟨choice, executes⟩ := c.exec executed
            let moved : Config (fun op => Reply (inject op)) PartWorld PartRequest PartAnswer :=
              ⟨c.view world, shown.threads.set index' (serving.resumed part_op reply part_rest)⟩
            have steps : part.Reaches (c.Asked visited) shown moved :=
              .tail (.step index' choice) (.refl _) ⟨seen_shown, fun _ same => by cases same⟩
                (by simp only [Machine.next, here, busy, held.world, executes, moved])
            have bounds : ∀ i place_i, place i = some place_i → place_i < moved.threads.length := by
              intro i place_i same
              rw [List.length_set]
              exact held.inside i place_i same
            have others : ∀ (other : Nat) (current : Thread Reply Request Answer), other ≠ index →
                (cfg.threads.set index (thread.resumed (inject part_op) reply
                  fun reply => ((part_rest reply).lift inject).bind next))[other]? = some current →
                c.Standing moved current.request current.program (place other) := by
              intro other current is at_other
              refine (earlier is at_other).set here busy rfl fun same => is (held.apart _ _ _ same at_place)
            have kept : ∀ pair ∈ served, Answered moved pair := fun pair member =>
              (answered pair member).set here busy rfl
            have current_here : moved.threads[index']? = some (serving.resumed part_op reply part_rest) :=
              List.getElem?_set_self (List.getElem?_eq_some_iff.mp here).1
            cases comes : part_rest reply with
            | ret answer =>
                have delegates : Delegates inject part.handler (Spares whole c.view) (c.asks thread.request)
                    (c.ends thread.request) ((serving.request, answer) :: served)
                    (((part_rest reply).lift inject).bind next) := by
                  rw [comes]
                  exact following answer
                have answered' : ∀ pair ∈ (serving.request, answer) :: served, Answered moved pair := by
                  intro pair member
                  rcases List.mem_cons.mp member with rfl | member
                  · exact ⟨index', _, current_here, rfl, comes⟩
                  · exact kept pair member
                have going : ∃ later place, part.Reaches (c.Asked visited) moved later ∧
                    c.Represents ⟨world, cfg.threads.set index (thread.resumed (inject part_op) reply
                      fun reply => ((part_rest reply).lift inject).bind next)⟩ later place :=
                  goes_on held.apart bounds rfl seen_after now_here answered' delegates others
                obtain ⟨later, place, run, represents⟩ := going
                exact ⟨later, place, steps.trans run, represents⟩
            | call op' rest' =>
                refine ⟨moved, place, steps, rfl, fun other current at_other => ?_, held.apart, bounds⟩
                by_cases is : other = index
                · subst is
                  cases now_here.symm.trans at_other
                  rw [at_place]
                  refine .serving kept current_here comes ?_ following
                  rfl
                · exact others other current is at_other

def Visited (c : Component inject whole part) (first last : Config Reply World Request Answer)
    (viewed : PartWorld) : Prop :=
  ∃ middle, whole.Reaches anyStep first middle ∧ whole.Reaches anyStep middle last ∧ viewed = c.view middle.world

/-- The whole's runs are, for the part, its own runs; every store they go through has been
the whole's. -/
theorem runs_part {w : World} (run : whole.Reaches anyStep ⟨w, []⟩ cfg) :
    ∃ shown place, part.Reaches (c.Asked (c.Visited ⟨w, []⟩ cfg)) ⟨c.view w, []⟩ shown ∧
      c.Represents cfg shown place := by
  generalize start : (⟨w, []⟩ : Config Reply World Request Answer) = first at run ⊢
  induction run with
  | refl =>
      subst start
      exact ⟨⟨c.view w, []⟩, fun _ => none, .refl _, rfl, nofun, nofun, nofun⟩
  | @tail last after label before meets stepped ih =>
      obtain ⟨shown, place, run, represents⟩ := ih
      have since : whole.Reaches anyStep last after := .tail label (.refl _) meets stepped
      have longer : part.Reaches (c.Asked (c.Visited first after)) ⟨c.view w, []⟩ shown :=
        run.mono fun _ _ ⟨⟨middle, reached, rest, same⟩, asked⟩ => ⟨⟨middle, reached, rest.trans since, same⟩, asked⟩
      have seen : c.Visited first after (c.view last.world) := ⟨last, before, since, rfl⟩
      obtain ⟨later, place, more, represents⟩ :=
        represents.next seen ⟨after, before.trans since, .refl _, rfl⟩ stepped
      exact ⟨later, place, longer.trans more, represents⟩

/-- What an ended thread of the whole answered, it answered from what the part told it. -/
theorem Represents.ended (held : c.Represents cfg shown place) {thread : Thread Reply Request Answer}
    (member : thread ∈ cfg.threads) {answer : Answer} (ended : thread.program = .ret answer) :
    ∃ served, c.ends thread.request served answer ∧ ∀ pair ∈ served, Answered shown pair := by
  obtain ⟨index, found⟩ := List.mem_iff_getElem?.mp member
  have standing := held.standing index thread found
  generalize place index = here at standing
  cases standing with
  | ended answered same done =>
      cases ended.symm.trans same
      exact ⟨_, done, answered⟩
  | aside answered same spares rest => cases ended.symm.trans same
  | serving answered here busy same following =>
      rw [busy] at same
      cases ended.symm.trans same

end Component
end Interleaving
