import Payknot.GoText
import Payknot.Patterns

/-! Descriptions of imported event pages (`import.go`): markup is rewritten to plain
text, which the checkout page then shows as text. -/
namespace Payknot.Import
open GoText Patterns

section Rewriting

/-- Go's `(?i)`; s and k also fold with ſ and the Kelvin sign. -/
def foldsWith (letter c : Char) : Bool :=
  letter.toLower == c.toLower || (letter.toLower == 's' && c == 'ſ') || (letter.toLower == 'k' && c == '\u212a')

def folded (text : String) : Pattern Char := text.toList.map fun letter => .one (foldsWith letter)

/-- `\s` of Go's regular expressions. -/
def patternSpace (c : Char) : Bool := c == '\t' || c == '\n' || c == '\x0c' || c == '\r' || c == ' '

/-- `regexp.ReplaceAllString` and `strings.ReplaceAll`. -/
def replaceText (find : Finder Char) (new text : String) : String :=
  String.ofList (replaceAll find new.toList text.toList)

def replaceLiteral (old new text : String) : String := replaceText (matchFront (literal old.toList)) new text

/-- `htmlUnescape`, after `html.UnescapeString`. -/
def htmlUnescape (unescapeString : String → String) (s : String) : String :=
  replaceLiteral "\u00a0" " " (unescapeString s)

def htmlPatternReplacements : List (List (Pattern Char) × String) :=
  [ ([folded "<br" ++ [.greedy patternSpace, .optional (· == '/')] ++ folded ">"], "\n"),
    ([folded "</p>"], "\n\n"),
    ([folded "</div>"], "\n"),
    ([folded "<li>"], "- "),
    ([folded "</li>"], "\n"),
    ([folded "&nbsp;", folded "&#160;", folded "&#xA0;"], " "),
    ([folded "&bullet;"], "• ") ]

/-- `<[^>]+>` -/
def tag : Pattern Char := [.one (· == '<'), .one (· != '>'), .greedy (· != '>'), .one (· == '>')]

/-- `\n{3,}` -/
def blankLines : Pattern Char := [.one (· == '\n'), .one (· == '\n'), .one (· == '\n'), .greedy (· == '\n')]

def normalizeImportedDescription (unescapeString : String → String) (raw : String) : String :=
  let s := trimSpace (htmlUnescape unescapeString raw)
  if s = "" then ""
  else
    let s := replaceLiteral "\\r\\n" "\n" s
    let s := replaceLiteral "\\n" "\n" s
    let s := replaceLiteral "\\t" "\t" s
    let s := htmlPatternReplacements.foldl (fun s (patterns, new) => replaceText (matchFirst patterns) new s) s
    let s := replaceText (matchFront tag) "" s
    let s := replaceText (matchFront blankLines) "\n\n" s
    trimSpace s

/-- The checkout page's `/<[^>]+>/.test(value)`. -/
def looksLikeHtml (value : String) : Bool := test tag value.toList

end Rewriting

section Markup
variable {text out rest : List Char}

/-- What `[^>]+` between angle brackets matches. -/
theorem matches_tag : Matches tag text ↔ ∃ inside, inside ≠ [] ∧ '>' ∉ inside ∧ text = '<' :: inside ++ ['>'] := by
  constructor
  · rintro ⟨c, _, rfl, opens, d, _, rfl, first, run, _, rfl, all, e, _, rfl, closes, rfl⟩
    simp only [beq_iff_eq, bne_iff_ne] at opens first closes all
    subst opens closes
    refine ⟨d :: run, by simp, ?_, rfl⟩
    rintro (_ | ⟨_, later⟩)
    · exact first rfl
    · exact all _ later rfl
  · rintro ⟨inside, some_char, unclosed, rfl⟩
    cases inside with
    | nil => exact absurd rfl some_char
    | cons d run =>
        have first : d ≠ '>' := fun same => unclosed (same ▸ List.mem_cons_self)
        refine ⟨'<', _, rfl, by simp, d, run ++ ['>'], rfl, by simpa using first, run, ['>'], rfl, ?_, '>', [], rfl,
          by simp, rfl⟩
        intro c member
        have other : c ≠ '>' := fun same => unclosed (same ▸ List.mem_cons_of_mem _ member)
        simpa using other

def Settled : List Char → Prop
  | [] => True
  | c :: rest => (c = '<' → rest.head? = some '>' ∨ '>' ∉ rest) ∧ Settled rest

theorem settled_suffix (settled : Settled text) (suffix : rest <:+ text) : Settled rest := by
  obtain ⟨before, rfl⟩ := suffix
  induction before with
  | nil => exact settled
  | cons c before ih => exact ih settled.2

theorem Settled.no_tag (settled : Settled text) {markup : List Char} (within : markup <:+: text) :
    ¬ Matches tag markup := by
  rw [matches_tag]
  rintro ⟨inside, some_char, unclosed, rfl⟩
  obtain ⟨before, after, rfl⟩ := within
  have here : Settled ('<' :: (inside ++ '>' :: after)) := by
    apply settled_suffix settled
    exact ⟨before, by simp⟩
  rcases here.1 rfl with at_once | never
  · cases inside with
    | nil => exact some_char rfl
    | cons d run =>
        rw [List.cons_append, List.head?_cons, Option.some.injEq] at at_once
        exact unclosed (at_once ▸ List.mem_cons_self)
  · exact never (by simp)

-- Where the tag pass finds nothing, an angle bracket is closed at once or never.
theorem no_tag_here (nothing : matchFront tag ('<' :: rest) = none) : rest.head? = some '>' ∨ '>' ∉ rest := by
  by_contra open_tag
  simp only [not_or, not_not] at open_tag
  obtain ⟨apart, closed⟩ := open_tag
  obtain ⟨inside, after, rfl, unclosed⟩ : ∃ inside after, rest = inside ++ '>' :: after ∧ '>' ∉ inside :=
    List.eq_append_cons_of_mem closed
  have some_char : inside ≠ [] := by
    rintro rfl
    exact apart rfl
  have front : '<' :: inside ++ ['>'] <+: '<' :: (inside ++ '>' :: after) := ⟨after, by simp⟩
  exact not_matches nothing front (matches_tag.mpr ⟨inside, some_char, unclosed, rfl⟩)

/-- A pass that finds nothing at `>` and writes no angle bracket keeps a text settled
where it keeps a bracket. -/
theorem settled_kept {find : Finder Char} {new : List Char} (idle : ∀ rest, find ('>' :: rest) = none)
    (plain : '>' ∉ new) (tail : Rewrites find new rest out) (settled : rest.head? = some '>' ∨ '>' ∉ rest) :
    out.head? = some '>' ∨ '>' ∉ out := by
  rcases settled with at_once | never
  · cases rest with
    | nil => cases at_once
    | cons d after =>
        rw [List.head?_cons, Option.some.injEq] at at_once
        subst at_once
        obtain ⟨kept, rfl, _⟩ := tail.head (idle after)
        exact .inl rfl
  · right
    intro member
    rcases tail.mem member with old | new
    · exact never old
    · exact plain new

theorem settled_removeTags (rewrites : Rewrites (matchFront tag) [] text out) : Settled out := by
  induction rewrites with
  | done => trivial
  | @keep c rest out nothing tail ih =>
      refine ⟨?_, ih⟩
      rintro rfl
      exact settled_kept (matchFront_one rfl) (by simp) tail (no_tag_here nothing)
  | cut _ _ ih => exact ih

theorem settled_collapse (rewrites : Rewrites (matchFront blankLines) ['\n', '\n'] text out) (settled : Settled text) :
    Settled out := by
  induction rewrites with
  | done => trivial
  | @keep c rest out nothing tail ih =>
      refine ⟨?_, ih settled.2⟩
      intro opens
      exact settled_kept (matchFront_one rfl) (by decide) tail (settled.1 opens)
  | cut _ _ ih =>
      have other : '\n' ≠ '<' := by decide
      have rest_settled := ih (settled_suffix settled (List.suffix_append _ _))
      exact ⟨fun opens => absurd opens other, fun opens => absurd opens other, rest_settled⟩

end Markup

section Lines
variable {text out : List Char}

def breaks (text : List Char) : Nat := (text.takeWhile (· == '\n')).length

@[simp] theorem breaks_nil : breaks [] = 0 := rfl

@[simp] theorem breaks_break (rest : List Char) : breaks ('\n' :: rest) = breaks rest + 1 := by
  simp [breaks]

theorem breaks_other {c : Char} (other : c ≠ '\n') (rest : List Char) : breaks (c :: rest) = 0 := by
  simp [breaks, other]

theorem breaks_dropWhile (text : List Char) : breaks (text.dropWhile (· == '\n')) = 0 := by
  induction text with
  | nil => rfl
  | cons c rest ih =>
      rw [List.dropWhile_cons]
      by_cases is_break : c = '\n'
      · rwa [if_pos (by simpa using is_break)]
      · rw [if_neg (by simpa using is_break)]
        exact breaks_other is_break rest

def Spaced : List Char → Prop
  | [] => True
  | c :: rest => breaks (c :: rest) ≤ 2 ∧ Spaced rest

theorem Spaced.no_run (spaced : Spaced text) : ¬ ['\n', '\n', '\n'] <:+: text := by
  rintro ⟨before, after, rfl⟩
  induction before with
  | nil =>
      have few := spaced.1
      simp at few
  | cons c before ih => exact ih spaced.2

-- Where nothing is collapsed there are at most two line breaks.
theorem breaks_uncollapsed (nothing : matchFront blankLines text = none) : breaks text ≤ 2 := by
  by_contra many
  rcases text with _ | ⟨a, _ | ⟨b, _ | ⟨c, rest⟩⟩⟩
  · simp at many
  · by_cases a_break : a = '\n' <;> simp_all [breaks_other]
  · by_cases a_break : a = '\n' <;> by_cases b_break : b = '\n' <;> simp_all [breaks_other]
  · have all : a = '\n' ∧ b = '\n' ∧ c = '\n' := by
      by_cases a_break : a = '\n' <;> by_cases b_break : b = '\n' <;> by_cases c_break : c = '\n' <;>
        simp_all [breaks_other]
    obtain ⟨rfl, rfl, rfl⟩ := all
    have front : ['\n', '\n', '\n'] <+: '\n' :: '\n' :: '\n' :: rest := ⟨rest, rfl⟩
    apply not_matches nothing front
    exact ⟨_, _, rfl, rfl, _, _, rfl, rfl, _, _, rfl, rfl, [], [], rfl, by simp, rfl⟩

-- A collapsed run is of three or more and ends where the line breaks do.
theorem breaks_collapsed {rest : List Char} (found : matchFront blankLines text = some rest) :
    3 ≤ breaks text ∧ breaks rest = 0 := by
  rcases text with _ | ⟨a, _ | ⟨b, _ | ⟨c, text⟩⟩⟩
  · cases found
  · simp [matchFront, blankLines] at found
  · simp [matchFront, blankLines] at found
  · simp only [blankLines, matchFront, Option.ite_none_right_eq_some, beq_iff_eq] at found
    obtain ⟨rfl, rfl, rfl, found⟩ := found
    have taken := (longest_last text).symm.trans found
    rw [Option.some.injEq] at taken
    subst taken
    exact ⟨by simp, breaks_dropWhile text⟩

theorem spaced_collapse (rewrites : Rewrites (matchFront blankLines) ['\n', '\n'] text out) :
    Spaced out ∧ breaks out ≤ breaks text ∧ breaks out ≤ 2 := by
  induction rewrites with
  | done => exact ⟨trivial, Nat.le_refl _, by simp⟩
  | @keep c rest out nothing tail ih =>
      obtain ⟨spaced, fewer, few⟩ := ih
      have bound := breaks_uncollapsed nothing
      by_cases is_break : c = '\n'
      · subst is_break
        rw [breaks_break] at bound
        have now_few : breaks ('\n' :: out) ≤ breaks ('\n' :: rest) ∧ breaks ('\n' :: out) ≤ 2 := by
          rw [breaks_break, breaks_break]
          omega
        exact ⟨⟨now_few.2, spaced⟩, now_few⟩
      · have none_here (rest : List Char) := breaks_other is_break rest
        exact ⟨⟨by simp [none_here], spaced⟩, by simp [none_here], by simp [none_here]⟩
  | @cut c matched rest out found tail ih =>
      obtain ⟨spaced, fewer, few⟩ := ih
      obtain ⟨many, ended⟩ := breaks_collapsed found
      have none_left : breaks out = 0 := by omega
      have two : breaks (['\n', '\n'] ++ out) = 2 := by simp [none_left]
      exact ⟨⟨two.le, by simp [none_left], spaced⟩, by omega, two.le⟩

end Lines

section Results

theorem trimSpace_infix (text : String) : (trimSpace text).toList <:+: text.toList := by
  rw [trimSpace, String.toList_ofList]
  exact trimmed_part isSpace text.toList

-- The text before the last trimming: settled, and without blank lines in a row.
theorem normalized_part (unescapeString : String → String) (raw : String) : ∃ text : List Char,
    Settled text ∧ Spaced text ∧ (normalizeImportedDescription unescapeString raw).toList <:+: text ∧
      trimSpace (normalizeImportedDescription unescapeString raw) = normalizeImportedDescription unescapeString raw := by
  unfold normalizeImportedDescription
  generalize trimSpace (htmlUnescape unescapeString raw) = start
  by_cases blank : start = ""
  · rw [if_pos blank]
    exact ⟨[], trivial, trivial, by simp, by decide⟩
  · rw [if_neg blank]
    dsimp only
    generalize htmlPatternReplacements.foldl _ _ = s
    generalize untagged_is : replaceText (matchFront tag) "" s = untagged
    generalize collapsed_is : replaceText (matchFront blankLines) "\n\n" untagged = collapsed
    have settled : Settled untagged.toList := by
      rw [← untagged_is, replaceText, String.toList_ofList]
      exact settled_removeTags (replaceAll_rewrites (proper_matchFront _ _) _)
    have pass : Rewrites (matchFront blankLines) ['\n', '\n'] untagged.toList collapsed.toList := by
      rw [← collapsed_is, replaceText, String.toList_ofList]
      exact replaceAll_rewrites (proper_matchFront _ _) _
    exact ⟨collapsed.toList, settled_collapse pass settled, (spaced_collapse pass).1, trimSpace_infix collapsed,
      trimSpace_trimSpace collapsed⟩

/-- An imported description has no markup, no run of three line breaks and no white space
at its ends, so the checkout page shows it as text. -/
theorem imported_description_plain (unescapeString : String → String) (raw : String) :
    (∀ inside, inside ≠ [] → '>' ∉ inside →
      ¬ ('<' :: inside ++ ['>']) <:+: (normalizeImportedDescription unescapeString raw).toList) ∧
    looksLikeHtml (normalizeImportedDescription unescapeString raw) = false ∧
    ¬ ['\n', '\n', '\n'] <:+: (normalizeImportedDescription unescapeString raw).toList ∧
    (∀ c ∈ (normalizeImportedDescription unescapeString raw).toList.head?, isSpace c = false) ∧
    (∀ c ∈ (normalizeImportedDescription unescapeString raw).toList.getLast?, isSpace c = false) := by
  obtain ⟨text, settled, spaced, part, trimmed⟩ := normalized_part unescapeString raw
  generalize normalizeImportedDescription unescapeString raw = result at part trimmed ⊢
  have unmarked {markup : List Char} (within : markup <:+: result.toList) : ¬ Matches tag markup :=
    settled.no_tag (within.trans part)
  refine ⟨?_, ?_, ?_, ?_, ?_⟩
  · intro inside some_char unclosed within
    exact unmarked within (matches_tag.mpr ⟨inside, some_char, unclosed, rfl⟩)
  · rw [looksLikeHtml, Bool.eq_false_iff]
    intro marked
    obtain ⟨markup, within, fits⟩ := test_iff.mp marked
    exact unmarked within fits
  · exact fun run => spaced.no_run (run.trans part)
  · intro c first
    rw [← trimmed, trimSpace, String.toList_ofList] at first
    exact trimmed_head first
  · intro c last
    rw [← trimmed, trimSpace, String.toList_ofList] at last
    exact trimmed_last last

example : normalizeImportedDescription id "<p>one</P>\\n\n<<b>two<>&NBSP;<b\n>" = "one\n\ntwo<>" := by decide +kernel

end Results
end Payknot.Import
