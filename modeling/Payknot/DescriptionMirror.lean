import Payknot.Descriptions
import Payknot.Markup
import Mathlib.Tactic.IntervalCases

/-! Luma's rich descriptions. A document tree of any shape is rendered to HTML; the text
is that of a forest of harmless elements, and a browser reads it as this forest. -/
namespace Payknot.Import
open GoText Markup

section Rendering

/-- A type assertion whose `ok` is dropped. -/
def stringOf : Json → String
  | .str value => value
  | _ => ""

/-- `html.EscapeString` -/
def escapeString (s : String) : String := String.ofList (escape s.toList)

inductive NodeType where
  | doc | paragraph | heading | bulletList | orderedList | listItem | hardBreak | image | text | unknown

def nodeType : String → NodeType
  | "doc" => .doc
  | "paragraph" => .paragraph
  | "heading" => .heading
  | "bullet_list" => .bulletList
  | "ordered_list" => .orderedList
  | "list_item" => .listItem
  | "hard_break" => .hardBreak
  | "image" => .image
  | "text" => .text
  | _ => .unknown

inductive MarkType where
  | bold | italic | underline | strike | code | link | unknown

def markType : String → MarkType
  | "bold" => .bold
  | "italic" => .italic
  | "underline" => .underline
  | "strike" => .strike
  | "code" => .code
  | "link" => .link
  | _ => .unknown

/-- `int(n)` of a float64 with `n >= 1 && n <= 6`; the bit patterns of positive floats
are in the order of the floats. -/
def levelOf (bits : UInt64) : Option Nat :=
  if 0x3FF0000000000000 ≤ bits.toNat ∧ bits.toNat ≤ 0x4018000000000000 then
    some ((bits.toNat % 2 ^ 52 + 2 ^ 52) / 2 ^ (1075 - bits.toNat / 2 ^ 52))
  else none

def headingLevel (members : Object) : Nat :=
  match lookup members "attrs" with
  | .obj attrs => match lookup attrs "level" with
      | .num n => (levelOf n).getD 2
      | _ => 2
  | _ => 2

def hrefOf (mark : Object) : String :=
  match lookup mark "attrs" with
  | .obj attrs => stringOf (lookup attrs "href")
  | _ => ""

/-- The body of the loop over `marks`. -/
def renderMark (out : String) : Json → String
  | .obj mark => match markType (stringOf (lookup mark "type")) with
      | .bold => "<strong>" ++ out ++ "</strong>"
      | .italic => "<em>" ++ out ++ "</em>"
      | .underline => "<u>" ++ out ++ "</u>"
      | .strike => "<s>" ++ out ++ "</s>"
      | .code => "<code>" ++ out ++ "</code>"
      | .link =>
          if trimSpace (hrefOf mark) ≠ "" then
            "<a href=\"" ++ escapeString (hrefOf mark) ++ "\" target=\"_blank\" rel=\"noreferrer\">" ++ out ++ "</a>"
          else out
      | .unknown => out
  | _ => out

def marksOf (members : Object) : List Json :=
  match lookup members "marks" with
  | .arr marks => marks
  | _ => []

def renderText (members : Object) : String :=
  let text := stringOf (lookup members "text")
  if text = "" then "" else (marksOf members).foldl renderMark (escapeString text)

def renderImage (members : Object) : String :=
  match lookup members "attrs" with
  | .obj attrs =>
      let src := stringOf (lookup attrs "src")
      let alt := stringOf (lookup attrs "alt")
      if trimSpace src ≠ "" then
        "<img src=\"" ++ escapeString src ++ "\" alt=\"" ++ escapeString alt ++ "\"/>"
      else ""
  | _ => ""

def renderNode (members : Object) (content : String) : String :=
  match nodeType (stringOf (lookup members "type")) with
  | .doc | .unknown => content
  | .paragraph => "<p>" ++ content ++ "</p>"
  | .heading =>
      let tag := "h" ++ toString (headingLevel members)
      "<" ++ tag ++ ">" ++ content ++ "</" ++ tag ++ ">"
  | .bulletList => "<ul>" ++ content ++ "</ul>"
  | .orderedList => "<ol>" ++ content ++ "</ol>"
  | .listItem => "<li>" ++ content ++ "</li>"
  | .hardBreak => "<br/>"
  | .image => renderImage members
  | .text => renderText members

mutual
def renderLumaDescriptionMirrorHTML : Json → String
  | .obj members => renderNode members (renderContent members)
  | .arr items => renderMirrorChildren items
  | _ => ""
def renderMirrorChildren : List Json → String
  | [] => ""
  | child :: rest => renderLumaDescriptionMirrorHTML child ++ renderMirrorChildren rest
/-- The children of the member `content`. -/
def renderContent : Object → String
  | [] => ""
  | (key, .arr items) :: rest => if key == "content" then renderMirrorChildren items else renderContent rest
  | (key, _) :: rest => if key == "content" then "" else renderContent rest
end

/-- `content, _ := v["content"].([]interface{})` -/
def contentOf (members : Object) : List Json :=
  match lookup members "content" with
  | .arr items => items
  | _ => []

theorem renderContent_eq (members : Object) : renderContent members = renderMirrorChildren (contentOf members) := by
  induction members with
  | nil => rfl
  | cons member rest ih =>
      obtain ⟨key, value⟩ := member
      by_cases named : key = "content"
      · subst named
        cases value <;> rfl
      · have skipped : lookup ((key, value) :: rest) "content" = lookup rest "content" := by
          simp [lookup, named]
        have same : contentOf ((key, value) :: rest) = contentOf rest := by
          unfold contentOf
          rw [skipped]
        rw [same, ← ih]
        cases value <;> simp [renderContent, named]

end Rendering

section Forests

def element (name : String) (attributes : List (String × String)) (children : Forest) : Forest :=
  .element name.toList (attributes.map fun attr => (attr.1.toList, attr.2.toList)) children .nil

def void (name : String) (attributes : List (String × String)) : Forest :=
  .void name.toList (attributes.map fun attr => (attr.1.toList, attr.2.toList)) .nil

def markForest (inner : Forest) : Json → Forest
  | .obj mark => match markType (stringOf (lookup mark "type")) with
      | .bold => element "strong" [] inner
      | .italic => element "em" [] inner
      | .underline => element "u" [] inner
      | .strike => element "s" [] inner
      | .code => element "code" [] inner
      | .link =>
          if trimSpace (hrefOf mark) ≠ "" then
            element "a" [("href", hrefOf mark), ("target", "_blank"), ("rel", "noreferrer")] inner
          else inner
      | .unknown => inner
  | _ => inner

def textForest (members : Object) : Forest :=
  let text := stringOf (lookup members "text")
  if text = "" then .nil else (marksOf members).foldl markForest (.text text.toList .nil)

def imageForest (members : Object) : Forest :=
  match lookup members "attrs" with
  | .obj attrs =>
      let src := stringOf (lookup attrs "src")
      let alt := stringOf (lookup attrs "alt")
      if trimSpace src ≠ "" then void "img" [("src", src), ("alt", alt)] else .nil
  | _ => .nil

def nodeForest (members : Object) (content : Forest) : Forest :=
  match nodeType (stringOf (lookup members "type")) with
  | .doc | .unknown => content
  | .paragraph => element "p" [] content
  | .heading => element ("h" ++ toString (headingLevel members)) [] content
  | .bulletList => element "ul" [] content
  | .orderedList => element "ol" [] content
  | .listItem => element "li" [] content
  | .hardBreak => void "br" []
  | .image => imageForest members
  | .text => textForest members

mutual
/-- The elements a document stands for; its strings are texts and attribute values only. -/
def mirror : Json → Forest
  | .obj members => nodeForest members (mirrorContent members)
  | .arr items => mirrorChildren items
  | _ => .nil
def mirrorChildren : List Json → Forest
  | [] => .nil
  | child :: rest => (mirror child).append (mirrorChildren rest)
def mirrorContent : Object → Forest
  | [] => .nil
  | (key, .arr items) :: rest => if key == "content" then mirrorChildren items else mirrorContent rest
  | (key, _) :: rest => if key == "content" then .nil else mirrorContent rest
end

section Written
variable {out : String} {inner : Forest}

theorem write_element {opening closing name : String} (opened : opening.toList = '<' :: name.toList ++ ['>'])
    (closed : closing.toList = '<' :: '/' :: name.toList ++ ['>']) (same : out.toList = inner.write) :
    (opening ++ out ++ closing).toList = (element name [] inner).write := by
  simp [element, Forest.write, Forest.writeAttributes, same, opened, closed]

theorem write_link (href : String) (same : out.toList = inner.write) :
    ("<a href=\"" ++ escapeString href ++ "\" target=\"_blank\" rel=\"noreferrer\">" ++ out ++ "</a>").toList =
      (element "a" [("href", href), ("target", "_blank"), ("rel", "noreferrer")] inner).write := by
  have fixed : escape "_blank".toList = "_blank".toList ∧ escape "noreferrer".toList = "noreferrer".toList := by
    decide
  simp only [element, List.map_cons, List.map_nil, Forest.write, Forest.writeAttributes, fixed, ← same]
  simp [escapeString]

theorem write_image (src alt : String) :
    ("<img src=\"" ++ escapeString src ++ "\" alt=\"" ++ escapeString alt ++ "\"/>").toList =
      (void "img" [("src", src), ("alt", alt)]).write := by
  simp [void, Forest.write, Forest.writeAttributes, escapeString]

theorem write_mark (same : out.toList = inner.write) (mark : Json) :
    (renderMark out mark).toList = (markForest inner mark).write := by
  cases mark with
  | obj mark =>
      unfold renderMark markForest
      dsimp only
      cases markType (stringOf (lookup mark "type")) with
      | bold => exact write_element (by decide) (by decide) same
      | italic => exact write_element (by decide) (by decide) same
      | underline => exact write_element (by decide) (by decide) same
      | strike => exact write_element (by decide) (by decide) same
      | code => exact write_element (by decide) (by decide) same
      | link =>
          by_cases given : trimSpace (hrefOf mark) ≠ ""
          · simp only [if_pos given]
            exact write_link (hrefOf mark) same
          · simp only [if_neg given]
            exact same
      | unknown => exact same
  | _ => exact same

theorem write_text (members : Object) : (renderText members).toList = (textForest members).write := by
  unfold renderText textForest
  by_cases blank : stringOf (lookup members "text") = ""
  · simp only [if_pos blank]
    rfl
  · simp only [if_neg blank]
    generalize marksOf members = marks
    have start : (escapeString (stringOf (lookup members "text"))).toList =
        (Forest.text (stringOf (lookup members "text")).toList .nil).write := by
      simp [escapeString, Forest.write]
    generalize escapeString _ = out at start ⊢
    generalize Forest.text _ .nil = inner at start ⊢
    induction marks generalizing out inner with
    | nil => exact start
    | cons mark rest ih => exact ih _ _ (write_mark start mark)

theorem write_node (members : Object) (same : out.toList = inner.write) :
    (renderNode members out).toList = (nodeForest members inner).write := by
  unfold renderNode nodeForest
  cases nodeType (stringOf (lookup members "type")) with
  | doc | unknown => exact same
  | paragraph => exact write_element (by decide) (by decide) same
  | heading =>
      have split (tag : String) : "<" ++ tag ++ ">" ++ out ++ "</" ++ tag ++ ">" =
          "<" ++ tag ++ ">" ++ out ++ ("</" ++ tag ++ ">") := by simp [String.append_assoc]
      dsimp only
      rw [split]
      exact write_element (by simp) (by simp) same
  | bulletList => exact write_element (by decide) (by decide) same
  | orderedList => exact write_element (by decide) (by decide) same
  | listItem => exact write_element (by decide) (by decide) same
  | hardBreak =>
      dsimp only
      decide
  | image =>
      unfold renderImage imageForest
      cases lookup members "attrs" with
      | obj attrs =>
          by_cases given : trimSpace (stringOf (lookup attrs "src")) ≠ ""
          · simp only [if_pos given]
            exact write_image _ _
          · simp only [if_neg given]
            rfl
      | _ => rfl
  | text => exact write_text members

mutual
theorem write_mirror : ∀ node : Json, (renderLumaDescriptionMirrorHTML node).toList = (mirror node).write
  | .obj members => write_node members (write_content members)
  | .arr items => write_children items
  | .null | .bool _ | .num _ | .str _ => rfl
theorem write_children : ∀ items : List Json, (renderMirrorChildren items).toList = (mirrorChildren items).write
  | [] => rfl
  | child :: rest => by
      rw [renderMirrorChildren, mirrorChildren, String.toList_append, Forest.write_append, write_mirror child,
        write_children rest]
theorem write_content : ∀ members : Object, (renderContent members).toList = (mirrorContent members).write
  | [] => rfl
  | (key, .arr items) :: rest => by
      rw [renderContent, mirrorContent]
      split
      · exact write_children items
      · exact write_content rest
  | (key, .null) :: rest | (key, .bool _) :: rest | (key, .num _) :: rest | (key, .str _) :: rest
  | (key, .obj _) :: rest => by
      rw [renderContent, mirrorContent]
      · split
        · rfl
        · exact write_content rest
      all_goals exact fun _ same => nomatch same
end

end Written

section Permitted

def bareElements : List (List Char) :=
  ["p", "h1", "h2", "h3", "h4", "h5", "h6", "ul", "ol", "li", "strong", "em", "u", "s", "code"].map String.toList

def permittedElement (name : List Char) (attributes : List Attribute) : Prop :=
  name ∈ bareElements ∧ attributes = [] ∨
    name = "a".toList ∧ attributes.map Prod.fst = ["href", "target", "rel"].map String.toList

def permittedVoid (name : List Char) (attributes : List Attribute) : Prop :=
  name = "br".toList ∧ attributes = [] ∨
    name = "img".toList ∧ attributes.map Prod.fst = ["src", "alt"].map String.toList

abbrev Permitted (forest : Forest) : Prop := forest.All permittedElement permittedVoid

variable {inner : Forest}

theorem levelOf_bounds {bits : UInt64} {level : Nat} (read : levelOf bits = some level) : 1 ≤ level ∧ level ≤ 6 := by
  simp only [levelOf, Option.ite_none_right_eq_some, Option.some.injEq] at read
  obtain ⟨⟨least, most⟩, rfl⟩ := read
  have exponent : bits.toNat / 2 ^ 52 = 1023 ∨ bits.toNat / 2 ^ 52 = 1024 ∨ bits.toNat / 2 ^ 52 = 1025 := by omega
  rcases exponent with exponent | exponent | exponent
  · rw [exponent]
    omega
  · rw [exponent]
    omega
  · rw [exponent]
    omega

theorem headingLevel_bounds (members : Object) : 1 ≤ headingLevel members ∧ headingLevel members ≤ 6 := by
  unfold headingLevel
  split
  · split
    · next n _ =>
      cases read : levelOf n with
      | none => simp
      | some level => exact levelOf_bounds read
    · simp
  · simp

theorem heading_name (members : Object) :
    ("h" ++ toString (headingLevel members)).toList ∈ bareElements := by
  obtain ⟨least, most⟩ := headingLevel_bounds members
  generalize headingLevel members = level at least most
  interval_cases level <;> decide

theorem permitted_element {name : String} (known : permittedElement name.toList []) (content : Permitted inner) :
    Permitted (element name [] inner) := ⟨known, content, trivial⟩

theorem permitted_mark (content : Permitted inner) (mark : Json) : Permitted (markForest inner mark) := by
  cases mark with
  | obj mark =>
      unfold markForest
      dsimp only
      cases markType (stringOf (lookup mark "type")) with
      | bold | italic | underline | strike | code =>
          exact permitted_element (.inl ⟨by decide, rfl⟩) content
      | link =>
          by_cases given : trimSpace (hrefOf mark) ≠ ""
          · simp only [if_pos given]
            exact ⟨.inr ⟨rfl, by simp⟩, content, trivial⟩
          · simp only [if_neg given]
            exact content
      | unknown => exact content
  | _ => exact content

theorem permitted_text (members : Object) : Permitted (textForest members) := by
  unfold textForest
  by_cases blank : stringOf (lookup members "text") = ""
  · simp only [if_pos blank]
    trivial
  · simp only [if_neg blank]
    generalize marksOf members = marks
    have start : Permitted (.text (stringOf (lookup members "text")).toList .nil) := trivial
    generalize Forest.text _ .nil = inner at start ⊢
    induction marks generalizing inner with
    | nil => exact start
    | cons mark rest ih => exact ih _ (permitted_mark start mark)

theorem permitted_node (members : Object) (content : Permitted inner) : Permitted (nodeForest members inner) := by
  unfold nodeForest
  cases nodeType (stringOf (lookup members "type")) with
  | doc | unknown => exact content
  | paragraph | bulletList | orderedList | listItem => exact permitted_element (.inl ⟨by decide, rfl⟩) content
  | heading => exact permitted_element (.inl ⟨heading_name members, rfl⟩) content
  | hardBreak => exact ⟨.inl ⟨rfl, rfl⟩, trivial⟩
  | image =>
      unfold imageForest
      dsimp only
      split
      · next attrs _ =>
        by_cases given : trimSpace (stringOf (lookup attrs "src")) ≠ ""
        · simp only [if_pos given]
          exact ⟨.inr ⟨rfl, by simp⟩, trivial⟩
        · simp only [if_neg given]
          trivial
      · trivial
  | text => exact permitted_text members

mutual
theorem permitted_mirror : ∀ node : Json, Permitted (mirror node)
  | .obj members => permitted_node members (permitted_content members)
  | .arr items => permitted_children items
  | .null | .bool _ | .num _ | .str _ => trivial
theorem permitted_children : ∀ items : List Json, Permitted (mirrorChildren items)
  | [] => trivial
  | child :: rest => (permitted_mirror child).append (permitted_children rest)
theorem permitted_content : ∀ members : Object, Permitted (mirrorContent members)
  | [] => trivial
  | (key, .arr items) :: rest => by
      rw [mirrorContent]
      split
      · exact permitted_children items
      · exact permitted_content rest
  | (key, .null) :: rest | (key, .bool _) :: rest | (key, .num _) :: rest | (key, .str _) :: rest
  | (key, .obj _) :: rest => by
      rw [mirrorContent]
      · split
        · trivial
        · exact permitted_content rest
      all_goals exact fun _ same => nomatch same
end

end Permitted
end Forests

section Results

theorem plainTag_of_permitted {name : List Char} {attributes : List Attribute}
    (permitted : permittedElement name attributes ∨ permittedVoid name attributes) : PlainTag name attributes := by
  have known (names : List (List Char)) (plain : names.all isPlain = true) (member : name ∈ names) : Plain name :=
    .of_isPlain (List.all_eq_true.mp plain name member)
  have listed (names : List (List Char)) (plain : names.all isPlain = true) (same : attributes.map Prod.fst = names) :
      ∀ attr ∈ attributes, Plain attr.1 := by
    intro attr member
    have among : attr.1 ∈ names := same ▸ List.mem_map_of_mem member
    exact .of_isPlain (List.all_eq_true.mp plain _ among)
  rcases permitted with (⟨bare, rfl⟩ | ⟨rfl, named⟩) | (⟨rfl, rfl⟩ | ⟨rfl, named⟩)
  · exact ⟨known bareElements (by decide) bare, by simp⟩
  · exact ⟨known ["a".toList] (by decide) (by simp), listed _ (by decide) named⟩
  · exact ⟨known ["br".toList] (by decide) (by simp), by simp⟩
  · exact ⟨known ["img".toList] (by decide) (by simp), listed _ (by decide) named⟩

theorem not_void_of_permitted {name : List Char} {attributes : List Attribute}
    (permitted : permittedElement name attributes) : isVoid name = false := by
  rcases permitted with ⟨bare, _⟩ | ⟨rfl, _⟩
  · have all : (bareElements.all fun name => !isVoid name) = true := by decide
    simpa using List.all_eq_true.mp all name bare
  · decide

theorem void_of_permitted {name : List Char} {attributes : List Attribute}
    (permitted : permittedVoid name attributes) : isVoid name = true := by
  rcases permitted with ⟨rfl, _⟩ | ⟨rfl, _⟩ <;> decide

/-- A token of a permitted description; the values of a tag are escaped. -/
def PermittedToken : Token → Prop
  | .start name attributes => ∃ meant, attributes = Forest.writtenAttributes meant ∧
      (permittedElement name meant ∨ permittedVoid name meant)
  | .close name => ∃ attributes, permittedElement name attributes
  | .char c => c ≠ '<' ∧ c ≠ '>'
  | .comment => False

/-- For every JSON value the rendered description is the text of a forest of permitted
elements. A browser reads it as this forest, whose tags are balanced and permitted, and
what the input's strings hold is text or the value of an attribute. -/
theorem mirror_html_wellformed (node : Json) :
    (renderLumaDescriptionMirrorHTML node).toList = (mirror node).write ∧ Permitted (mirror node) ∧
      tokens (renderLumaDescriptionMirrorHTML node).toList = (mirror node).events ∧
      Balanced (tokens (renderLumaDescriptionMirrorHTML node).toList) ∧
      ∀ token ∈ tokens (renderLumaDescriptionMirrorHTML node).toList, PermittedToken token := by
  have written := write_mirror node
  have permitted := permitted_mirror node
  have read : tokens (renderLumaDescriptionMirrorHTML node).toList = (mirror node).events := by
    rw [written]
    exact tokens_write (permitted.mono (fun _ _ inner => plainTag_of_permitted (.inl inner))
      fun _ _ leaf => plainTag_of_permitted (.inr leaf))
  refine ⟨written, permitted, read, ?_, ?_⟩
  · rw [read]
    exact balanced_events (permitted.mono (fun _ _ => not_void_of_permitted) fun _ _ => void_of_permitted)
  · intro token member
    rw [read] at member
    rcases permitted.event member with ⟨c, rfl, solid⟩ | ⟨name, attributes, rfl, known⟩ | ⟨name, attributes, rfl, known⟩
    · exact solid
    · exact ⟨attributes, rfl, known⟩
    · exact ⟨attributes, known⟩

-- 0.5, 1.5, 6 and 6.5 as heading levels.
example : [0x3FE0000000000000, 0x3FF8000000000000, 0x4018000000000000, 0x401A000000000000].map levelOf =
    [none, some 1, some 6, none] := by decide

example : renderLumaDescriptionMirrorHTML (.obj [("type", .str "paragraph"), ("content", .arr [.obj
    [("type", .str "text"), ("text", .str "</p><script>"), ("marks", .arr [.obj [("type", .str "bold")]])]])]) =
    "<p><strong>&lt;/p&gt;&lt;script&gt;</strong></p>" := by decide +kernel

end Results

end Payknot.Import
