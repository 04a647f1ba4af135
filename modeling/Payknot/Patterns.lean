import Mathlib.Data.List.Infix
import Mathlib.Tactic.Common

/-! Regular expressions whose repetitions range over single characters. They are matched
as a backtracking engine matches them: at the leftmost place, then by the preference of
each repetition. -/
namespace Patterns

variable {Symbol : Type}

inductive Item (Symbol : Type) where
  | one (cls : Symbol → Bool)
  /-- `c?` -/
  | optional (cls : Symbol → Bool)
  /-- `c*` -/
  | greedy (cls : Symbol → Bool)
  /-- `c*?` -/
  | lazy (cls : Symbol → Bool)

abbrev Pattern (Symbol : Type) := List (Item Symbol)

abbrev Finder (Symbol : Type) := List Symbol → Option (List Symbol)

def longest (cls : Symbol → Bool) (next : Finder Symbol) : Finder Symbol
  | [] => next []
  | c :: rest => if cls c then (longest cls next rest).or (next (c :: rest)) else next (c :: rest)

def shortest (cls : Symbol → Bool) (next : Finder Symbol) : Finder Symbol
  | [] => next []
  | c :: rest => (next (c :: rest)).or (if cls c then shortest cls next rest else none)

def matchFront : Pattern Symbol → Finder Symbol
  | [], text => some text
  | .one cls :: pattern, text => match text with
      | [] => none
      | c :: rest => if cls c then matchFront pattern rest else none
  | .optional cls :: pattern, text => match text with
      | [] => matchFront pattern []
      | c :: rest => if cls c then (matchFront pattern rest).or (matchFront pattern (c :: rest))
          else matchFront pattern (c :: rest)
  | .greedy cls :: pattern, text => longest cls (matchFront pattern) text
  | .lazy cls :: pattern, text => shortest cls (matchFront pattern) text

def matchFirst (patterns : List (Pattern Symbol)) : Finder Symbol := fun text =>
  patterns.findSome? fun pattern => matchFront pattern text

/-- The texts a pattern matches, however an engine looks for them. -/
def Matches : Pattern Symbol → List Symbol → Prop
  | [], text => text = []
  | .one cls :: pattern, text => ∃ c rest, text = c :: rest ∧ cls c = true ∧ Matches pattern rest
  | .optional cls :: pattern, text =>
      Matches pattern text ∨ ∃ c rest, text = c :: rest ∧ cls c = true ∧ Matches pattern rest
  | .greedy cls :: pattern, text | .lazy cls :: pattern, text =>
      ∃ run rest, text = run ++ rest ∧ (∀ c ∈ run, cls c = true) ∧ Matches pattern rest

def literal [BEq Symbol] (text : List Symbol) : Pattern Symbol := text.map fun c => .one (c == ·)

section Fronts
variable {cls : Symbol → Bool} {next : Finder Symbol} {pattern : Pattern Symbol} {text rest : List Symbol}

theorem longest_sound (found : longest cls next text = some rest) :
    ∃ run after, text = run ++ after ∧ (∀ c ∈ run, cls c = true) ∧ next after = some rest := by
  induction text with
  | nil => exact ⟨[], [], rfl, by simp, found⟩
  | cons c tail ih =>
      rw [longest] at found
      by_cases inside : cls c = true
      · rw [if_pos inside] at found
        rcases Option.or_eq_some_iff.mp found with further | ⟨_, here⟩
        · obtain ⟨run, after, rfl, all, ended⟩ := ih further
          exact ⟨c :: run, after, rfl, by simpa using ⟨inside, all⟩, ended⟩
        · exact ⟨[], c :: tail, rfl, by simp, here⟩
      · rw [if_neg inside] at found
        exact ⟨[], c :: tail, rfl, by simp, found⟩

theorem shortest_sound (found : shortest cls next text = some rest) :
    ∃ run after, text = run ++ after ∧ (∀ c ∈ run, cls c = true) ∧ next after = some rest := by
  induction text with
  | nil => exact ⟨[], [], rfl, by simp, found⟩
  | cons c tail ih =>
      rw [shortest] at found
      rcases Option.or_eq_some_iff.mp found with here | ⟨_, further⟩
      · exact ⟨[], c :: tail, rfl, by simp, here⟩
      · by_cases inside : cls c = true
        · rw [if_pos inside] at further
          obtain ⟨run, after, rfl, all, ended⟩ := ih further
          exact ⟨c :: run, after, rfl, by simpa using ⟨inside, all⟩, ended⟩
        · rw [if_neg inside] at further
          cases further

theorem longest_isSome {run : List Symbol} (all : ∀ c ∈ run, cls c = true) (ends : (next text).isSome = true) :
    (longest cls next (run ++ text)).isSome = true := by
  induction run with
  | nil =>
      cases text with
      | nil => exact ends
      | cons c tail =>
          rw [List.nil_append, longest]
          split
          · simp [Option.isSome_or, ends]
          · exact ends
  | cons c run ih =>
      have inside := all c List.mem_cons_self
      have further := ih fun d member => all d (List.mem_cons_of_mem _ member)
      rw [List.cons_append, longest, if_pos inside]
      simp [Option.isSome_or, further]

theorem shortest_isSome {run : List Symbol} (all : ∀ c ∈ run, cls c = true) (ends : (next text).isSome = true) :
    (shortest cls next (run ++ text)).isSome = true := by
  induction run with
  | nil =>
      cases text with
      | nil => exact ends
      | cons c tail =>
          rw [List.nil_append, shortest]
          simp [Option.isSome_or, ends]
  | cons c run ih =>
      have inside := all c List.mem_cons_self
      have further := ih fun d member => all d (List.mem_cons_of_mem _ member)
      rw [List.cons_append, shortest, if_pos inside]
      simp [Option.isSome_or, further]

-- What the engine takes is a text of the pattern.
theorem matchFront_sound (found : matchFront pattern text = some rest) :
    ∃ matched, text = matched ++ rest ∧ Matches pattern matched := by
  induction pattern generalizing text with
  | nil =>
      cases found
      exact ⟨[], rfl, rfl⟩
  | cons item pattern ih =>
      cases item with
      | one cls =>
          cases text with
          | nil => cases found
          | cons c tail =>
              rw [matchFront] at found
              simp only [Option.ite_none_right_eq_some] at found
              obtain ⟨matched, rfl, fits⟩ := ih found.2
              exact ⟨c :: matched, rfl, c, matched, rfl, found.1, fits⟩
      | optional cls =>
          cases text with
          | nil =>
              obtain ⟨matched, same, fits⟩ := ih found
              exact ⟨matched, same, .inl fits⟩
          | cons c tail =>
              rw [matchFront] at found
              have skipped (found : matchFront pattern (c :: tail) = some rest) :
                  ∃ matched, c :: tail = matched ++ rest ∧ Matches (.optional cls :: pattern) matched := by
                obtain ⟨matched, same, fits⟩ := ih found
                exact ⟨matched, same, .inl fits⟩
              by_cases inside : cls c = true
              · simp only [if_pos inside] at found
                rcases Option.or_eq_some_iff.mp found with taken | ⟨_, left⟩
                · obtain ⟨matched, rfl, fits⟩ := ih taken
                  exact ⟨c :: matched, rfl, .inr ⟨c, matched, rfl, inside, fits⟩⟩
                · exact skipped left
              · simp only [if_neg inside] at found
                exact skipped found
      | greedy cls =>
          obtain ⟨run, after, rfl, all, found⟩ := longest_sound found
          obtain ⟨matched, rfl, fits⟩ := ih found
          exact ⟨run ++ matched, by simp, run, matched, rfl, all, fits⟩
      | lazy cls =>
          obtain ⟨run, after, rfl, all, found⟩ := shortest_sound found
          obtain ⟨matched, rfl, fits⟩ := ih found
          exact ⟨run ++ matched, by simp, run, matched, rfl, all, fits⟩

-- Where some front of the text is in the pattern, the engine takes one.
theorem matchFront_isSome {matched : List Symbol} (fits : Matches pattern matched) (rest : List Symbol) :
    (matchFront pattern (matched ++ rest)).isSome = true := by
  induction pattern generalizing matched with
  | nil => rfl
  | cons item pattern ih =>
      cases item with
      | one cls =>
          obtain ⟨c, tail, rfl, inside, fits⟩ := fits
          rw [List.cons_append, matchFront]
          simp only [if_pos inside]
          exact ih fits
      | optional cls =>
          rcases fits with fits | ⟨c, tail, rfl, inside, fits⟩
          · have skipped := ih fits
            cases text : matched ++ rest with
            | nil =>
                rw [text] at skipped
                exact skipped
            | cons c tail =>
                rw [text] at skipped
                rw [matchFront]
                split
                · simp [Option.isSome_or, skipped]
                · exact skipped
          · rw [List.cons_append, matchFront]
            simp only [if_pos inside]
            simp [Option.isSome_or, ih fits]
      | greedy cls =>
          obtain ⟨run, tail, rfl, all, fits⟩ := fits
          rw [List.append_assoc]
          exact longest_isSome all (ih fits)
      | lazy cls =>
          obtain ⟨run, tail, rfl, all, fits⟩ := fits
          rw [List.append_assoc]
          exact shortest_isSome all (ih fits)

theorem matches_append {items : Pattern Symbol} :
    Matches (items ++ pattern) text ↔ ∃ front rest, text = front ++ rest ∧ Matches items front ∧ Matches pattern rest := by
  induction items generalizing text with
  | nil => exact ⟨fun fits => ⟨[], text, rfl, rfl, fits⟩, by rintro ⟨_, rest, rfl, rfl, fits⟩; exact fits⟩
  | cons item items ih =>
      cases item with
      | one cls =>
          constructor
          · rintro ⟨c, tail, rfl, inside, fits⟩
            obtain ⟨front, rest, rfl, before, after⟩ := ih.mp fits
            exact ⟨c :: front, rest, rfl, ⟨c, front, rfl, inside, before⟩, after⟩
          · rintro ⟨_, rest, rfl, ⟨c, front, rfl, inside, before⟩, after⟩
            exact ⟨c, front ++ rest, rfl, inside, ih.mpr ⟨front, rest, rfl, before, after⟩⟩
      | optional cls =>
          constructor
          · rintro (fits | ⟨c, tail, rfl, inside, fits⟩)
            · obtain ⟨front, rest, rfl, before, after⟩ := ih.mp fits
              exact ⟨front, rest, rfl, .inl before, after⟩
            · obtain ⟨front, rest, rfl, before, after⟩ := ih.mp fits
              exact ⟨c :: front, rest, rfl, .inr ⟨c, front, rfl, inside, before⟩, after⟩
          · rintro ⟨_, rest, rfl, before | ⟨c, front, rfl, inside, before⟩, after⟩
            · exact .inl (ih.mpr ⟨_, rest, rfl, before, after⟩)
            · exact .inr ⟨c, front ++ rest, rfl, inside, ih.mpr ⟨front, rest, rfl, before, after⟩⟩
      | greedy cls | lazy cls =>
          constructor
          · rintro ⟨run, tail, rfl, all, fits⟩
            obtain ⟨front, rest, rfl, before, after⟩ := ih.mp fits
            exact ⟨run ++ front, rest, by simp, ⟨run, front, rfl, all, before⟩, after⟩
          · rintro ⟨_, rest, rfl, ⟨run, front, rfl, all, before⟩, after⟩
            exact ⟨run, front ++ rest, by simp, all, ih.mpr ⟨front, rest, rfl, before, after⟩⟩

theorem not_matches (nothing : matchFront pattern text = none) {matched : List Symbol}
    (front : matched <+: text) : ¬ Matches pattern matched := by
  intro fits
  obtain ⟨rest, rfl⟩ := front
  have found := matchFront_isSome fits rest
  rw [nothing] at found
  cases found

theorem longest_last (text : List Symbol) : longest cls some text = some (text.dropWhile cls) := by
  induction text with
  | nil => rfl
  | cons c tail ih =>
      rw [longest, List.dropWhile_cons]
      by_cases inside : cls c = true
      · rw [if_pos inside, if_pos inside, ih, Option.some_or]
      · rw [if_neg inside, if_neg inside]

theorem matchFront_one {c : Symbol} (outside : cls c = false) (text : List Symbol) :
    matchFront (.one cls :: pattern) (c :: text) = none := by
  rw [matchFront]
  simp [outside]

def test (pattern : Pattern Symbol) (text : List Symbol) : Bool :=
  text.tails.any fun tail => (matchFront pattern tail).isSome

theorem test_iff : test pattern text = true ↔ ∃ matched, matched <:+: text ∧ Matches pattern matched := by
  unfold test
  rw [List.any_eq_true]
  constructor
  · rintro ⟨tail, member, found⟩
    obtain ⟨rest, found⟩ := Option.isSome_iff_exists.mp found
    obtain ⟨matched, rfl, fits⟩ := matchFront_sound found
    have within : matched ++ rest <:+ text := (List.mem_tails _ _).mp member
    exact ⟨matched, (List.prefix_append matched rest).isInfix.trans within.isInfix, fits⟩
  · rintro ⟨matched, ⟨before, after, rfl⟩, fits⟩
    refine ⟨matched ++ after, (List.mem_tails _ _).mpr ⟨before, by simp⟩, matchFront_isSome fits after⟩

end Fronts

section Replacing
variable {find : Finder Symbol} {repl text out rest : List Symbol}

/-- After a match the scan goes on behind it; `skip` counts what is left of the match. -/
def replaceFrom (find : Finder Symbol) (repl : List Symbol) : Nat → List Symbol → List Symbol
  | _, [] => []
  | skip + 1, _ :: rest => replaceFrom find repl skip rest
  | 0, c :: rest =>
      match find (c :: rest) with
      | some after => repl ++ replaceFrom find repl (rest.length - after.length) rest
      | none => c :: replaceFrom find repl 0 rest

def replaceAll (find : Finder Symbol) (repl text : List Symbol) : List Symbol := replaceFrom find repl 0 text

/-- A finder whose matches are at the front of the text and not empty. -/
def Proper (find : Finder Symbol) : Prop :=
  ∀ text rest, find text = some rest → ∃ c matched, text = c :: matched ++ rest

theorem proper_matchFront (cls : Symbol → Bool) (pattern : Pattern Symbol) :
    Proper (matchFront (.one cls :: pattern)) := by
  intro text rest found
  obtain ⟨_, rfl, c, matched, rfl, _, _⟩ := matchFront_sound found
  exact ⟨c, matched, rfl⟩

/-- The pass over a text: every character is kept where nothing is found, every match is
replaced. -/
inductive Rewrites (find : Finder Symbol) (repl : List Symbol) : List Symbol → List Symbol → Prop where
  | done : Rewrites find repl [] []
  | keep {c rest out} (nothing : find (c :: rest) = none) (tail : Rewrites find repl rest out) :
      Rewrites find repl (c :: rest) (c :: out)
  | cut {c matched rest out} (found : find (c :: matched ++ rest) = some rest)
      (tail : Rewrites find repl rest out) : Rewrites find repl (c :: matched ++ rest) (repl ++ out)

theorem replaceFrom_skip (run rest : List Symbol) :
    replaceFrom find repl run.length (run ++ rest) = replaceFrom find repl 0 rest := by
  induction run with
  | nil => rfl
  | cons c run ih => exact ih

theorem replaceAll_rewrites (proper : Proper find) (text : List Symbol) :
    Rewrites find repl text (replaceAll find repl text) := by
  generalize size : text.length = n
  induction n using Nat.strong_induction_on generalizing text with
  | h n ih =>
      cases text with
      | nil => exact .done
      | cons c tail =>
          rw [List.length_cons] at size
          unfold replaceAll replaceFrom
          cases found : find (c :: tail) with
          | none => exact .keep found (ih tail.length (by omega) tail rfl)
          | some after =>
              obtain ⟨first, matched, same⟩ := proper _ _ found
              obtain ⟨rfl, rfl⟩ : c = first ∧ tail = matched ++ after := by simpa using same
              rw [List.length_append] at size
              have skipped : replaceFrom find repl ((matched ++ after).length - after.length) (matched ++ after) =
                  replaceAll find repl after := by
                rw [List.length_append, Nat.add_sub_cancel]
                exact replaceFrom_skip matched after
              dsimp only
              rw [skipped]
              exact .cut found (ih after.length (by omega) after rfl)

-- Only the characters of the text and of the replacement are left.
theorem Rewrites.mem (rewrites : Rewrites find repl text out) {c : Symbol} (member : c ∈ out) :
    c ∈ text ∨ c ∈ repl := by
  induction rewrites with
  | done => exact .inl member
  | keep _ _ ih =>
      rcases List.mem_cons.mp member with rfl | later
      · exact .inl List.mem_cons_self
      · exact (ih later).imp (List.mem_cons_of_mem _) id
  | cut _ _ ih =>
      rcases List.mem_append.mp member with new | later
      · exact .inr new
      · exact (ih later).imp (List.mem_append_right _) id

-- A front at which nothing is found stays in front.
theorem Rewrites.head {c : Symbol} (rewrites : Rewrites find repl (c :: rest) out) (nothing : find (c :: rest) = none) :
    ∃ kept, out = c :: kept ∧ Rewrites find repl rest kept := by
  generalize same : c :: rest = text at rewrites
  cases rewrites with
  | done => cases same
  | keep _ tail =>
      cases same
      exact ⟨_, rfl, tail⟩
  | cut found tail =>
      rw [← same, nothing] at found
      cases found

end Replacing

section Steady
variable {cls stop : Symbol → Bool} {next : Finder Symbol} {pattern : Pattern Symbol} {text rest : List Symbol}

/-- A match at the front ends no later than any that begins further on. -/
def Onward (pattern : Pattern Symbol) : Prop :=
  ∀ run text rest front after, matchFront pattern (run ++ text) = some rest → text = front ++ after →
    Matches pattern front → after.length ≤ rest.length

/-- No repetition runs past a place where what follows it can match. -/
inductive Steady : Pattern Symbol → Prop where
  | nil : Steady []
  | one {cls : Symbol → Bool} {pattern : Pattern Symbol} (rest : Steady pattern) : Steady (.one cls :: pattern)
  | lazy {cls : Symbol → Bool} {pattern : Pattern Symbol} (rest : Steady pattern) : Steady (.lazy cls :: pattern)
  | greedy {cls stop : Symbol → Bool} {pattern : Pattern Symbol} (apart : ∀ c, cls c = true → stop c = false)
      (rest : Steady (.one stop :: pattern)) : Steady (.greedy cls :: .one stop :: pattern)

theorem onward_one (onward : Onward pattern) : Onward (.one cls :: pattern) := by
  intro run text rest front after found same fits
  obtain ⟨c, tail, rfl, _, fits⟩ := fits
  cases run with
  | nil =>
      rw [List.nil_append, same, List.cons_append, matchFront] at found
      simp only [Option.ite_none_right_eq_some] at found
      exact onward [] _ rest tail after found.2 rfl fits
  | cons d run =>
      rw [List.cons_append, matchFront] at found
      simp only [Option.ite_none_right_eq_some] at found
      have further : run ++ text = (run ++ [c]) ++ (tail ++ after) := by simp [same]
      rw [further] at found
      exact onward _ _ rest tail after found.2 rfl fits

/-- The run of a lazy repetition ends at the first place from where the rest matches. -/
theorem shortest_first (found : shortest cls next text = some rest) :
    ∃ run after, text = run ++ after ∧ (∀ c ∈ run, cls c = true) ∧ next after = some rest ∧
      ∀ before later, text = before ++ later → (∀ c ∈ before, cls c = true) → (next later).isSome = true →
        run.length ≤ before.length := by
  induction text with
  | nil => exact ⟨[], [], rfl, by simp, found, by simp⟩
  | cons c tail ih =>
      rw [shortest] at found
      rcases Option.or_eq_some_iff.mp found with here | ⟨nothing, further⟩
      · exact ⟨[], c :: tail, rfl, by simp, here, by simp⟩
      · simp only [Option.ite_none_right_eq_some] at further
        obtain ⟨run, after, same, inside, ended, least⟩ := ih further.2
        refine ⟨c :: run, after, by rw [same, List.cons_append], by simpa using ⟨further.1, inside⟩, ended, ?_⟩
        intro before later split all matched
        cases before with
        | nil =>
            rw [List.nil_append] at split
            rw [← split, nothing] at matched
            cases matched
        | cons d before =>
            simp only [List.cons_append, List.cons.injEq] at split
            have shorter := least before later split.2 (fun e member => all e (List.mem_cons_of_mem _ member)) matched
            simpa using shorter

theorem onward_lazy (onward : Onward pattern) : Onward (.lazy cls :: pattern) := by
  intro run text rest front after found same fits
  obtain ⟨before, tail, rfl, all, fits⟩ := fits
  obtain ⟨taken, left, split, inside, ended, least⟩ := shortest_first found
  have whole : taken ++ left = (run ++ before) ++ (tail ++ after) := by
    rw [← split, same]
    simp
  -- The place where the other match goes on is not passed by.
  have short : taken.length ≤ (run ++ before).length := by
    by_contra long
    rw [Nat.not_le] at long
    have passed : run ++ before <+: taken := by
      have prefixes : run ++ before <+: taken ++ left := ⟨tail ++ after, whole.symm⟩
      exact List.prefix_of_prefix_length_le prefixes (List.prefix_append _ _) (Nat.le_of_lt long)
    have reached := least (run ++ before) (tail ++ after) (split.trans whole) (fun c member => inside c (passed.subset member))
      (matchFront_isSome fits after)
    exact absurd reached (Nat.not_le.mpr long)
  obtain ⟨between, rfl⟩ : ∃ between, left = between ++ (tail ++ after) := by
    have prefixes : taken <+: (run ++ before) ++ (tail ++ after) := ⟨left, whole⟩
    obtain ⟨between, same⟩ := List.prefix_of_prefix_length_le prefixes (List.prefix_append _ _) short
    refine ⟨between, ?_⟩
    rw [← same, List.append_assoc] at whole
    exact List.append_cancel_left whole
  exact onward between _ rest tail after ended rfl fits

-- Greedy or lazy, a repetition up to a character outside it is the same.
theorem greedy_eq_lazy (apart : ∀ c, cls c = true → stop c = false) (text : List Symbol) :
    matchFront (.greedy cls :: .one stop :: pattern) text = matchFront (.lazy cls :: .one stop :: pattern) text := by
  change longest cls (matchFront (.one stop :: pattern)) text = shortest cls (matchFront (.one stop :: pattern)) text
  induction text with
  | nil => rfl
  | cons c rest ih =>
      rw [longest, shortest]
      by_cases inside : cls c = true
      · rw [if_pos inside, if_pos inside, matchFront_one (apart c inside), Option.or_none, Option.none_or, ih]
      · rw [if_neg inside, if_neg inside, Option.or_none]

theorem Steady.onward (steady : Steady pattern) : Onward pattern := by
  induction steady with
  | nil =>
      rintro run text rest front after found same rfl
      cases found
      rw [same]
      simp
  | one _ ih => exact onward_one ih
  | lazy _ ih => exact onward_lazy ih
  | greedy apart _ ih =>
      intro run text rest front after found same fits
      rw [greedy_eq_lazy apart] at found
      exact onward_lazy ih run text rest front after found same fits

def Shortest (pattern : Pattern Symbol) (piece : List Symbol) : Prop :=
  Matches pattern piece ∧ ∀ front, front <+: piece → Matches pattern front → front = piece

theorem Steady.takes_shortest (steady : Steady pattern) (found : matchFront pattern text = some rest) :
    ∃ piece, text = piece ++ rest ∧ Shortest pattern piece := by
  obtain ⟨piece, rfl, fits⟩ := matchFront_sound found
  refine ⟨piece, rfl, fits, ?_⟩
  rintro front ⟨more, rfl⟩ front_fits
  have later := steady.onward [] _ rest front (more ++ rest) found (List.append_assoc _ _ _) front_fits
  have none_more : more = [] := by
    apply List.eq_nil_of_length_eq_zero
    rw [List.length_append] at later
    omega
  rw [none_more, List.append_nil]

theorem Steady.append_ones {items : Pattern Symbol} (ones : ∀ item ∈ items, ∃ cls, item = .one cls)
    (steady : Steady pattern) : Steady (items ++ pattern) := by
  induction items with
  | nil => exact steady
  | cons item items ih =>
      obtain ⟨cls, rfl⟩ := ones item List.mem_cons_self
      exact .one (ih fun other member => ones other (List.mem_cons_of_mem _ member))

end Steady

section Removing
variable {pattern : Pattern Symbol} {patterns : List (Pattern Symbol)} {find : Finder Symbol} {text out base rest : List Symbol}

/-- The text is the other one with pieces strewn into it; where a character of the other
one stands no piece begins. -/
inductive Strewn (pattern : Pattern Symbol) : List Symbol → List Symbol → Prop where
  | done : Strewn pattern [] []
  | keep {c rest out} (nothing : ∀ front, front <+: c :: rest → ¬ Matches pattern front)
      (tail : Strewn pattern rest out) : Strewn pattern (c :: rest) (c :: out)
  | piece {piece rest out} (shortest : Shortest pattern piece) (tail : Strewn pattern rest out) :
      Strewn pattern (piece ++ rest) out

/-- Pieces of one pattern after the other, those of the last pattern inmost. -/
def Layered : List (Pattern Symbol) → List Symbol → List Symbol → Prop
  | [], text, base => text = base
  | pattern :: later, text, base => ∃ left, Strewn pattern text left ∧ Layered later left base

def Solid (pattern : Pattern Symbol) : Prop := ¬ Matches pattern []

def remove (pattern : Pattern Symbol) (text : List Symbol) : List Symbol := replaceAll (matchFront pattern) [] text

def removeAll (patterns : List (Pattern Symbol)) (text : List Symbol) : List Symbol :=
  patterns.foldl (fun text pattern => remove pattern text) text

theorem Strewn.unique {a b : List Symbol} (solid : Solid pattern) (first : Strewn pattern text a)
    (second : Strewn pattern text b) : a = b := by
  induction first generalizing b with
  | done =>
      generalize empty : ([] : List Symbol) = text at second
      cases second with
      | done => rfl
      | keep _ _ => cases empty
      | piece shortest _ =>
          rw [(List.append_eq_nil_iff.mp empty.symm).1] at shortest
          exact absurd shortest.1 solid
  | @keep c rest out nothing _ ih =>
      generalize same : c :: rest = text at second
      cases second with
      | done => cases same
      | keep _ tail =>
          cases same
          rw [ih tail]
      | piece shortest _ => exact absurd shortest.1 (nothing _ ⟨_, same.symm⟩)
  | @piece piece rest out shortest _ ih =>
      generalize same : piece ++ rest = text at second
      cases second with
      | done =>
          rw [(List.append_eq_nil_iff.mp same).1] at shortest
          exact absurd shortest.1 solid
      | keep nothing _ => exact absurd shortest.1 (nothing _ ⟨_, same⟩)
      | @piece other rest' out' also tail =>
          have equal : piece = other := by
            rcases List.prefix_or_prefix_of_prefix ⟨rest, same⟩ (List.prefix_append other rest') with shorter | longer
            · exact also.2 piece shorter shortest.1
            · exact (shortest.2 other longer also.1).symm
          subst equal
          rw [List.append_cancel_left same] at ih
          exact ih tail

theorem Steady.strewn (steady : Steady pattern) (rewrites : Rewrites (matchFront pattern) [] text out) :
    Strewn pattern text out := by
  induction rewrites with
  | done => exact .done
  | keep nothing _ ih => exact .keep (fun front before => not_matches nothing before) ih
  | cut found _ ih =>
      obtain ⟨piece, same, shortest⟩ := steady.takes_shortest found
      rw [same]
      exact .piece shortest ih

structure Removable (pattern : Pattern Symbol) : Prop where
  steady : Steady pattern
  solid : Solid pattern
  proper : Proper (matchFront pattern)

theorem Steady.removable {cls : Symbol → Bool} (steady : Steady (.one cls :: pattern)) :
    Removable (.one cls :: pattern) where
  steady := steady
  solid := by
    rintro ⟨c, rest, none, _⟩
    cases none
  proper := proper_matchFront cls pattern

theorem Removable.strewn_iff (removable : Removable pattern) : Strewn pattern text out ↔ remove pattern text = out := by
  have strewn := removable.steady.strewn (replaceAll_rewrites removable.proper text)
  constructor
  · exact strewn.unique removable.solid
  · rintro rfl
    exact strewn

theorem layered_iff (removable : ∀ pattern ∈ patterns, Removable pattern) :
    Layered patterns text base ↔ removeAll patterns text = base := by
  induction patterns generalizing text with
  | nil => rfl
  | cons pattern later ih =>
      have here := removable pattern List.mem_cons_self
      have inner := fun {text} => @ih text fun other member => removable other (List.mem_cons_of_mem _ member)
      simp only [Layered, here.strewn_iff, inner, exists_eq_left']
      rfl

def Free (pattern : Pattern Symbol) (text : List Symbol) : Prop := ∀ piece, piece <:+: text → ¬ Matches pattern piece

theorem Strewn.shrinks (solid : Solid pattern) (strewn : Strewn pattern text out) :
    (out = text ∧ Free pattern text) ∨ out.length < text.length := by
  induction strewn with
  | done =>
      refine .inl ⟨rfl, fun piece within => ?_⟩
      rw [List.infix_nil.mp within]
      exact solid
  | keep nothing _ ih =>
      rcases ih with ⟨same, free⟩ | less
      · refine .inl ⟨by rw [same], fun piece within => ?_⟩
        rcases List.infix_cons_iff.mp within with front | later
        · exact nothing piece front
        · exact free piece later
      · exact .inr (by simpa using less)
  | @piece piece rest out shortest _ ih =>
      have some_char : 0 < piece.length := by
        apply List.length_pos_of_ne_nil
        rintro rfl
        exact solid shortest.1
      have shorter : out.length ≤ rest.length := by
        rcases ih with ⟨same, _⟩ | less
        · rw [same]
        · exact Nat.le_of_lt less
      right
      rw [List.length_append]
      omega

theorem Free.strewn (free : Free pattern text) : Strewn pattern text text := by
  induction text with
  | nil => exact .done
  | cons c rest ih =>
      have later : Free pattern rest := fun piece within => free piece (within.trans (List.suffix_cons c rest).isInfix)
      exact .keep (fun front before => free front before.isInfix) (ih later)

theorem Removable.shrinks (removable : Removable pattern) (text : List Symbol) :
    (remove pattern text = text ∧ Free pattern text) ∨ (remove pattern text).length < text.length :=
  (removable.strewn_iff.mpr rfl).shrinks removable.solid

theorem length_removeAll (removable : ∀ pattern ∈ patterns, Removable pattern) (text : List Symbol) :
    (removeAll patterns text).length ≤ text.length := by
  induction patterns generalizing text with
  | nil => exact Nat.le_refl _
  | cons pattern later ih =>
      have inner := ih (fun other member => removable other (List.mem_cons_of_mem _ member)) (remove pattern text)
      have here : (remove pattern text).length ≤ text.length := by
        rcases (removable pattern List.mem_cons_self).shrinks text with ⟨same, _⟩ | less
        · rw [same]
        · exact Nat.le_of_lt less
      exact inner.trans here

-- Only a text without any piece stays as it is.
theorem removeAll_eq_self_iff (removable : ∀ pattern ∈ patterns, Removable pattern) :
    removeAll patterns text = text ↔ ∀ pattern ∈ patterns, Free pattern text := by
  induction patterns with
  | nil => simp [removeAll]
  | cons pattern later ih =>
      have here := removable pattern List.mem_cons_self
      have rest : ∀ other ∈ later, Removable other := fun other member => removable other (List.mem_cons_of_mem _ member)
      have step : removeAll (pattern :: later) text = removeAll later (remove pattern text) := rfl
      rw [step, List.forall_mem_cons, ← ih rest]
      rcases here.shrinks text with ⟨same, free⟩ | less
      · rw [same]
        exact ⟨fun fixed => ⟨free, fixed⟩, And.right⟩
      · have shorter := length_removeAll rest (remove pattern text)
        constructor
        · intro fixed
          rw [fixed] at shorter
          omega
        · rintro ⟨free, _⟩
          rw [here.strewn_iff.mp free.strewn] at less
          exact absurd less (Nat.lt_irrefl _)

end Removing
end Patterns
