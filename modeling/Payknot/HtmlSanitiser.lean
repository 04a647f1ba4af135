import Payknot.Markup
import Payknot.Patterns

/-! The sanitiser of both pages (`checkout/[slug]/page.tsx`, `app/page.tsx`) before
`dangerouslySetInnerHTML`: four patterns are cut out of the flat text one after the other.
Tags are read here wherever one can begin, as a browser reads them. -/
namespace Payknot.Import
open Patterns Markup

section Code

/-- A literal under `/i`, which folds the ASCII letters only. -/
def ignoringCase (text : String) : Pattern Char := text.toList.map fun letter => .one fun c => c.toLower == letter

/-- `[\s\S]` -/
def anyChar (_ : Char) : Bool := true

/-- `\w` -/
def isWord (c : Char) : Bool := c.isAlphanum || c == '_'

/-- `\s` of JavaScript. -/
def isBlank (c : Char) : Bool :=
  ('\t' ≤ c && c ≤ '\r') || c == ' ' || c == '\u00a0' || c == '\u1680' || ('\u2000' ≤ c && c ≤ '\u200a') ||
    c == '\u2028' || c == '\u2029' || c == '\u202f' || c == '\u205f' || c == '\u3000' || c == '\ufeff'

/-- `/<name[\s\S]*?>[\s\S]*?<\/name>/gi` -/
def elementPattern (name : String) : Pattern Char :=
  ignoringCase ("<" ++ name) ++ .lazy anyChar :: (ignoringCase ">" ++ .lazy anyChar :: ignoringCase ("</" ++ name ++ ">"))

/-- `/\son\w+="[^"]*"/gi`, and the same with the other quote. -/
def handlerPattern (quote : Char) : Pattern Char :=
  .one isBlank :: (ignoringCase "on" ++ .one isWord :: .greedy isWord :: .one ('=' == ·) :: .one (quote == ·) ::
    .greedy (quote != ·) :: .one (quote == ·) :: [])

def removable : List (Pattern Char) :=
  [elementPattern "script", elementPattern "style", handlerPattern '"', handlerPattern '\'']

def sanitizeHtml (input : String) : String :=
  if input = "" then "" else String.ofList (removeAll removable input.toList)

def sanitizeImportedHtml (input : String) : String := sanitizeHtml input

def sanitizeRichHtml (input : String) : String := sanitizeHtml input

end Code

section Purpose

def startTag : List Char → Option Token
  | '<' :: c :: rest => if c.isAlpha then (run .tagOpen (c :: rest)).2.head? else none
  | _ => none

/-- What the URL parser makes of a value: blanks and controls in front and every tab and
line break drop out. -/
def urlText (value : List Char) : List Char :=
  ((value.dropWhile fun c => c ≤ ' ').filter fun c => !(c == '\t' || c == '\n' || c == '\r')).map Char.toLower

/-- Runs a script. `decode` reads the character references of a value. -/
def activeAttribute (decode : List Char → List Char) (attr : Attribute) : Bool :=
  "on".toList.isPrefixOf attr.1 ||
    ((attr.1 == "href".toList || attr.1 == "src".toList) && "javascript:".toList.isPrefixOf (urlText (decode attr.2)))

structure Inert (decode : List Char → List Char) (text : List Char) : Prop where
  scriptless : ∀ word, word <:+: text → word.map Char.toLower ≠ "<script".toList
  tags : ∀ tail, tail <:+ text → ∀ name attributes, startTag tail = some (.start name attributes) →
    ∀ attr ∈ attributes, activeAttribute decode attr = false

def Sanitised (decode : List Char → List Char) (sanitize : String → String) (input : String) : Prop :=
  Inert decode (sanitize input).toList ∧ sanitize (sanitize input) = sanitize input

/-- Inert, and without the pieces that the patterns after the first one describe. -/
structure Harmless (decode : List Char → List Char) (text : List Char) : Prop where
  inert : Inert decode text
  free : ∀ pattern ∈ removable.tail, Free pattern text

end Purpose

section Patterns
variable {text : List Char} {pattern : Pattern Char}

theorem matches_ignoringCase (word : String) : Matches (ignoringCase word) text ↔ text.map Char.toLower = word.toList := by
  unfold ignoringCase
  generalize word.toList = letters
  induction letters generalizing text with
  | nil => simp [Matches]
  | cons letter letters ih =>
      rw [List.map_cons]
      constructor
      · rintro ⟨c, rest, rfl, same, fits⟩
        rw [List.map_cons, ih.mp fits, eq_of_beq same]
      · intro same
        cases text with
        | nil => cases same
        | cons c rest =>
            rw [List.map_cons, List.cons.injEq] at same
            exact ⟨c, rest, rfl, beq_iff_eq.mpr same.1, ih.mpr same.2⟩

theorem steady_ignoringCase (word : String) (steady : Steady pattern) : Steady (ignoringCase word ++ pattern) := by
  apply Steady.append_ones ?_ steady
  intro item member
  obtain ⟨letter, _, rfl⟩ := List.mem_map.mp member
  exact ⟨_, rfl⟩

theorem steady_element (name : String) : Steady (elementPattern name) := by
  have close := steady_ignoringCase ("</" ++ name ++ ">") .nil
  rw [List.append_nil] at close
  exact steady_ignoringCase _ (.lazy (steady_ignoringCase _ (.lazy close)))

theorem steady_handler {quote : Char} : Steady (handlerPattern quote) := by
  have value : Steady [.greedy (quote != ·), .one (quote == ·)] := by
    refine .greedy (fun c inside => ?_) (.one .nil)
    simpa using inside
  have name : Steady (.greedy isWord :: .one ('=' == ·) :: .one (quote == ·) ::
      [.greedy (quote != ·), .one (quote == ·)]) := by
    refine .greedy (fun c inside => ?_) (.one (.one value))
    rw [beq_eq_false_iff_ne]
    rintro rfl
    cases inside
  exact .one (steady_ignoringCase "on" (.one name))

theorem removable_element {name : String} {rest : List Char} (same : ("<" ++ name).toList = '<' :: rest) :
    Removable (elementPattern name) := by
  have steady := steady_element name
  unfold elementPattern ignoringCase at steady ⊢
  rw [same] at steady ⊢
  exact steady.removable

theorem all_removable : ∀ pattern ∈ removable, Removable pattern := by
  intro pattern member
  simp only [removable, List.mem_cons, List.not_mem_nil, or_false] at member
  rcases member with rfl | rfl | rfl | rfl
  · exact removable_element (show _ = '<' :: "script".toList by decide)
  · exact removable_element (show _ = '<' :: "style".toList by decide)
  · exact steady_handler.removable
  · exact steady_handler.removable

/-- A script element begins with `<script`. -/
theorem Inert.free_script {decode : List Char → List Char} (inert : Inert decode text) :
    Free (elementPattern "script") text := by
  intro piece within fits
  obtain ⟨word, rest, rfl, opens, _⟩ := matches_append.mp fits
  rw [matches_ignoringCase] at opens
  exact inert.scriptless word ((List.prefix_append word rest).isInfix.trans within) opens

end Patterns

section Results

theorem toList_sanitizeHtml (input : String) : (sanitizeHtml input).toList = removeAll removable input.toList := by
  unfold sanitizeHtml
  split
  · next empty =>
    subst empty
    decide +kernel
  · rw [String.toList_ofList]

/-- The sanitiser leaves a harmless text exactly where it was given one, with script
elements, style elements and quoted handlers put into it layer upon layer. -/
theorem sanitised_iff (decode : List Char → List Char) (input : String) :
    Sanitised decode sanitizeHtml input ↔ ∃ base, Harmless decode base ∧ Layered removable input.toList base := by
  have again : sanitizeHtml (sanitizeHtml input) = sanitizeHtml input ↔
      ∀ pattern ∈ removable, Free pattern (sanitizeHtml input).toList := by
    rw [← removeAll_eq_self_iff all_removable, ← toList_sanitizeHtml, String.toList_inj]
  constructor
  · rintro ⟨inert, fixed⟩
    refine ⟨(sanitizeHtml input).toList, ⟨inert, ?_⟩, ?_⟩
    · exact fun pattern member => again.mp fixed pattern (List.mem_of_mem_tail member)
    · rw [layered_iff all_removable, toList_sanitizeHtml]
  · rintro ⟨base, harmless, layered⟩
    rw [layered_iff all_removable, ← toList_sanitizeHtml] at layered
    subst layered
    refine ⟨harmless.inert, again.mpr fun pattern member => ?_⟩
    rcases List.mem_cons.mp member with rfl | later
    · exact harmless.inert.free_script
    · exact harmless.free pattern later

/-- Either function keeps the claim of its name on exactly these inputs. -/
theorem sanitised_html_iff (decode : List Char → List Char) (input : String) :
    (Sanitised decode sanitizeImportedHtml input ↔
      ∃ base, Harmless decode base ∧ Layered removable input.toList base) ∧
    (Sanitised decode sanitizeRichHtml input ↔
      ∃ base, Harmless decode base ∧ Layered removable input.toList base) :=
  ⟨sanitised_iff decode input, sanitised_iff decode input⟩

example : sanitizeHtml "<p onclick=\"a\">x</p><SCRIPT src='y'>z</script><style>p\x7b\x7d</style>" = "<p>x</p>" := by
  decide +kernel

/-- A handler without quotes and a script address stay as they are, and what is left of a
script tag around a script element becomes a script tag. -/
theorem sanitised_html_active :
    ¬ Sanitised id sanitizeImportedHtml "<img src=x onerror=alert(1)>" ∧
    ¬ Sanitised id sanitizeImportedHtml "<a href=\"javascript:alert(1)\">x</a>" ∧
    ¬ Sanitised id sanitizeImportedHtml "<scr<script></script>ipt>alert(1)</script>" := by
  refine ⟨?_, ?_, ?_⟩
  · rintro ⟨inert, _⟩
    have kept : sanitizeImportedHtml "<img src=x onerror=alert(1)>" = "<img src=x onerror=alert(1)>" := by
      decide +kernel
    rw [kept] at inert
    have calm := inert.tags _ (List.suffix_refl _) "img".toList
      [("src".toList, "x".toList), ("onerror".toList, "alert(1)".toList)] (by decide +kernel) _
      (List.mem_cons_of_mem _ List.mem_cons_self)
    exact absurd calm (by decide)
  · rintro ⟨inert, _⟩
    have kept : sanitizeImportedHtml "<a href=\"javascript:alert(1)\">x</a>" =
        "<a href=\"javascript:alert(1)\">x</a>" := by
      decide +kernel
    rw [kept] at inert
    have calm := inert.tags _ (List.suffix_refl _) "a".toList [("href".toList, "javascript:alert(1)".toList)]
      (by decide +kernel) _ List.mem_cons_self
    exact absurd calm (by decide)
  · rintro ⟨inert, _⟩
    have joined : sanitizeImportedHtml "<scr<script></script>ipt>alert(1)</script>" = "<script>alert(1)</script>" := by
      decide +kernel
    rw [joined] at inert
    exact inert.scriptless "<script".toList ⟨[], ">alert(1)</script>".toList, by decide⟩ (by decide)

end Results
end Payknot.Import
