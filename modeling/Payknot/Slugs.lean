import Payknot.Events
import Payknot.Mainnet
import Mathlib.Data.List.Chain

/-! Event slugs. What `buildEventSlug` makes of a title is lower-case letters, digits and
single dashes between them, and such a text is its own slug. -/
namespace Payknot
open GoText

def isSlugRune (c : Char) : Bool := ('a' ≤ c && c ≤ 'z') || ('0' ≤ c && c ≤ '9') || c = '-'

def doubledDash (a b : Char) : Prop := a = '-' ∧ b = '-'

structure SlugText (text : List Char) : Prop where
  runes : ∀ c ∈ text, isSlugRune c = true
  single : text.IsChain fun a b => ¬ doubledDash a b
  first : ∀ c ∈ text.head?, c ≠ '-'
  last : ∀ c ∈ text.getLast?, c ≠ '-'

section Loop

theorem slugRunes_kept {text : List Char} {lastDash : Bool} {c : Char} (kept : c ∈ slugRunes text lastDash) :
    isSlugRune c = true := by
  induction text generalizing lastDash with
  | nil => cases kept
  | cons d rest ih =>
      rw [slugRunes] at kept
      split at kept
      · next ok =>
        rcases List.mem_cons.mp kept with rfl | later
        · simp [isSlugRune, ok]
        · exact ih later
      · split at kept
        · rcases List.mem_cons.mp kept with rfl | later
          · rfl
          · exact ih later
        · exact ih kept

-- The flag keeps a second dash out, the first of the text included.
theorem slugRunes_single (text : List Char) (lastDash : Bool) :
    (slugRunes text lastDash).IsChain (fun a b => ¬ doubledDash a b) ∧
      (lastDash = true → ∀ c ∈ (slugRunes text lastDash).head?, c ≠ '-') := by
  induction text generalizing lastDash with
  | nil => simp [slugRunes]
  | cons c rest ih =>
      rw [slugRunes]
      split
      · next ok =>
        have letter : c ≠ '-' := by
          rintro rfl
          revert ok
          decide
        constructor
        · rw [List.isChain_cons]
          refine ⟨fun b _ doubled => letter doubled.1, (ih false).1⟩
        · intro _ d first
          simp only [List.head?_cons, Option.mem_some_iff] at first
          rwa [← first]
      · split
        · next dash =>
          constructor
          · rw [List.isChain_cons]
            exact ⟨fun b first doubled => (ih true).2 rfl b first doubled.2, (ih true).1⟩
          · intro set
            simp [set] at dash
        · exact ih lastDash

theorem slugRunes_self {text : List Char} {lastDash : Bool}
    (runes : ∀ c ∈ text, isSlugRune c = true) (single : text.IsChain fun a b => ¬ doubledDash a b)
    (first : lastDash = true → ∀ c ∈ text.head?, c ≠ '-') : slugRunes text lastDash = text := by
  induction text generalizing lastDash with
  | nil => rfl
  | cons c rest ih =>
      rw [List.isChain_cons] at single
      have later : ∀ d ∈ rest, isSlugRune d = true := fun d member => runes d (List.mem_cons_of_mem _ member)
      have kept := runes c List.mem_cons_self
      rw [slugRunes]
      split
      · rw [ih later single.2 (by simp)]
      · next other =>
        have dash : c = '-' := by
          simp only [isSlugRune, Bool.or_eq_true, Bool.and_eq_true, decide_eq_true_eq] at kept
          exact kept.resolve_left other
        have open_to : lastDash = false := by
          by_contra set
          exact first (by simpa using set) c (by simp) dash
        have after_dash : ∀ d ∈ rest.head?, d ≠ '-' := fun d next same => single.1 d next ⟨dash, same⟩
        rw [if_pos ⟨dash, by simp [open_to]⟩, ih later single.2 (fun _ => after_dash), dash]

end Loop

section Ends

-- With the dashes at its ends cut off it is a slug.
theorem slugText_trimDashes {text : List Char} (runes : ∀ c ∈ text, isSlugRune c = true)
    (single : text.IsChain fun a b => ¬ doubledDash a b) : SlugText (trimDashes text) := by
  have within := trimmed_part (fun c => decide (c = '-')) text
  constructor
  · exact fun c member => runes c (within.subset member)
  · exact List.IsChain.infix single within
  · intro c head
    simpa using trimmed_head head
  · intro c last
    simpa using trimmed_last last

theorem SlugText.trimDashes {text : List Char} (slug : SlugText text) : Payknot.trimDashes text = text := by
  apply trimmed_self
  · intro c head
    simpa using slug.first c head
  · intro c last
    simpa using slug.last c last

end Ends

section Slugs
variable {p : Platform}

def slugBase (p : Platform) (title : String) : List Char :=
  replaceChar ' ' ['-'] (replaceChar '_' ['-'] (replaceChar '&' " and ".toList
    (replaceChar '"' [] (replaceChar '\'' [] (toLower p.lowerRune (trimSpace title)).toList))))

def cutSlug (slug : List Char) : List Char :=
  if slug.length > 64 then Payknot.trimDashes (slug.take 64) else slug

theorem buildEventSlug_eq (title : String) :
    buildEventSlug p title =
      String.ofList (cutSlug (Payknot.trimDashes (slugRunes (slugBase p title) false))) := rfl

theorem SlugText.cut {text : List Char} (slug : SlugText text) : SlugText (cutSlug text) := by
  unfold cutSlug
  split
  · have within := (List.take_prefix 64 text).isInfix
    have single := List.IsChain.infix slug.single within
    exact slugText_trimDashes (fun c member => slug.runes c (within.subset member)) single
  · exact slug

theorem cutSlug_length (text : List Char) : (cutSlug text).length ≤ 64 := by
  unfold cutSlug
  split
  · exact (trimmed_part _ _).length_le.trans (List.length_take_le _ _)
  · omega

theorem slugText_build (title : String) : SlugText (buildEventSlug p title).toList := by
  rw [buildEventSlug_eq, String.toList_ofList]
  exact (slugText_trimDashes (fun c => slugRunes_kept) (slugRunes_single _ _).1).cut

theorem replaceChar_absent {old : Char} {new text : List Char} (absent : old ∉ text) :
    replaceChar old new text = text := by
  induction text with
  | nil => rfl
  | cons c rest ih =>
      obtain ⟨other, later⟩ := List.ne_and_not_mem_of_not_mem_cons absent
      have step : replaceChar old new (c :: rest) = c :: replaceChar old new rest := by
        simp [replaceChar, Ne.symm other]
      rw [step, ih later]

/-- Lower-casing leaves the runes of a slug alone, as `unicode.ToLower` does. -/
def LowersSlugs (p : Platform) : Prop := ∀ c, isSlugRune c = true → p.lowerRune c = c

theorem isSpace_slug {c : Char} (rune : isSlugRune c = true) : isSpace c = false := by
  have low : c ≤ 'z' := by
    simp only [isSlugRune, Bool.or_eq_true, Bool.and_eq_true, decide_eq_true_eq] at rune
    rcases rune with (⟨_, letter⟩ | ⟨_, digit⟩) | rfl
    · exact letter
    · exact digit.trans (by decide)
    · decide
  by_contra space
  rw [Bool.not_eq_false, isSpace, Bool.or_eq_true, decide_eq_true_eq, Bool.and_eq_true, decide_eq_true_eq,
    decide_eq_true_eq] at space
  rcases space with listed | ⟨high, _⟩
  · have foreign : (['\t', '\n', '\x0b', '\x0c', '\r', ' ', '\x85', '\xa0', '\u1680', '\u2028', '\u2029',
        '\u202f', '\u205f', '\u3000'].all fun d => !isSlugRune d) = true := by decide
    have other := List.all_eq_true.mp foreign c listed
    rw [rune] at other
    cases other
  · exact absurd (high.trans low) (by decide)

theorem SlugText.base (lowers : LowersSlugs p) {slug : String} (text : SlugText slug.toList) :
    slugBase p slug = slug.toList := by
  have trimmed : trimSpace slug = slug :=
    trimSpace_self (fun c head => isSpace_slug (text.runes c (List.mem_of_mem_head? head)))
      fun c last => isSpace_slug (text.runes c (List.mem_of_mem_getLast? last))
  have lower : (toLower p.lowerRune slug).toList = slug.toList := by
    rw [toLower, String.toList_ofList]
    exact (List.map_congr_left fun c member => lowers c (text.runes c member)).trans (List.map_id _)
  have absent {c : Char} (foreign : isSlugRune c = false) : c ∉ slug.toList := by
    intro member
    rw [text.runes c member] at foreign
    cases foreign
  unfold slugBase
  rw [trimmed, lower, replaceChar_absent (absent (by decide)), replaceChar_absent (absent (by decide)),
    replaceChar_absent (absent (by decide)), replaceChar_absent (absent (by decide)),
    replaceChar_absent (absent (by decide))]

theorem SlugText.build (lowers : LowersSlugs p) {slug : String} (text : SlugText slug.toList)
    (short : slug.toList.length ≤ 64) : buildEventSlug p slug = slug := by
  rw [buildEventSlug_eq, text.base lowers, slugRunes_self text.runes text.single (by simp),
    text.trimDashes, cutSlug, if_neg (by omega), String.ofList_toList]

/-- Every slug is well formed and its own slug. -/
theorem slug_canonical (lowers : LowersSlugs p) (title : String) :
    (buildEventSlug p title).toList.length ≤ 64 ∧ SlugText (buildEventSlug p title).toList ∧
      buildEventSlug p (buildEventSlug p title) = buildEventSlug p title := by
  have short : (buildEventSlug p title).toList.length ≤ 64 := by
    rw [buildEventSlug_eq, String.toList_ofList]
    exact cutSlug_length _
  exact ⟨short, slugText_build title, (slugText_build title).build lowers short⟩

open Mainnet in
theorem slug_canonical_meetup : (buildEventSlug platform "Meet_Up").toList.length ≤ 64 ∧
    SlugText (buildEventSlug platform "Meet_Up").toList ∧
    buildEventSlug platform (buildEventSlug platform "Meet_Up") = buildEventSlug platform "Meet_Up" := by
  apply slug_canonical
  intro c rune
  change c.toLower = c
  unfold Char.toLower
  split
  · next upper =>
    simp only [isSlugRune, Bool.or_eq_true, Bool.and_eq_true, decide_eq_true_eq] at rune
    rcases rune with (⟨letter, _⟩ | ⟨_, digit⟩) | rfl
    · exact absurd (upper.2.trans_lt (by decide)) (not_lt.mpr letter)
    · exact absurd (upper.1.trans digit) (by decide)
    · revert upper
      decide
  · rfl

end Slugs

end Payknot
