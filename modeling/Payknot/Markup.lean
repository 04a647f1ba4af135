import Mathlib.Data.List.Basic
import Mathlib.Tactic.Common

/-! HTML texts. A tokenizer reads tags and their attributes as a browser does; forests of
elements with escaped texts and attribute values are read back as they were written. -/
namespace Markup

section Tokens

def isSpace (c : Char) : Bool := c == '\t' || c == '\n' || c == '\x0c' || c == '\r' || c == ' '

abbrev Attribute := List Char × List Char

inductive Token where
  | start (name : List Char) (attributes : List Attribute)
  | close (name : List Char)
  | char (c : Char)
  | comment
  deriving DecidableEq

structure Tag where
  closes : Bool
  name : List Char
  attributes : List Attribute
  deriving DecidableEq

def Tag.token (tag : Tag) : Token := if tag.closes then .close tag.name else .start tag.name tag.attributes

def Tag.named (tag : Tag) (c : Char) : Tag := { tag with name := tag.name ++ [c.toLower] }

def Tag.with (tag : Tag) (name value : List Char) : Tag := { tag with attributes := tag.attributes ++ [(name, value)] }

inductive State where
  | data
  | tagOpen
  | endTagOpen
  | tagName (tag : Tag)
  | beforeName (tag : Tag)
  | attributeName (tag : Tag) (name : List Char)
  | afterName (tag : Tag) (name : List Char)
  | beforeValue (tag : Tag) (name : List Char)
  | quoted (quote : Char) (tag : Tag) (name value : List Char)
  | unquoted (tag : Tag) (name value : List Char)
  | afterQuoted (tag : Tag)
  | selfClosing (tag : Tag)
  /-- Comments and declarations, read up to the next `>`. -/
  | bogus
  deriving DecidableEq

def stepData (c : Char) : State × List Token := if c = '<' then (.tagOpen, []) else (.data, [.char c])

def stepBeforeName (tag : Tag) (c : Char) : State × List Token :=
  if isSpace c then (.beforeName tag, [])
  else if c = '/' then (.selfClosing tag, [])
  else if c = '>' then (.data, [tag.token])
  else (.attributeName tag [c.toLower], [])

def step : State → Char → State × List Token
  | .data, c => stepData c
  | .tagOpen, c =>
      if c.isAlpha then (.tagName ⟨false, [c.toLower], []⟩, [])
      else if c = '/' then (.endTagOpen, [])
      else if c = '!' ∨ c = '?' then (.bogus, [])
      else ((stepData c).1, .char '<' :: (stepData c).2)
  | .endTagOpen, c =>
      if c.isAlpha then (.tagName ⟨true, [c.toLower], []⟩, [])
      else if c = '>' then (.data, [])
      else (.bogus, [])
  | .tagName tag, c =>
      if isSpace c then (.beforeName tag, [])
      else if c = '/' then (.selfClosing tag, [])
      else if c = '>' then (.data, [tag.token])
      else (.tagName (tag.named c), [])
  | .beforeName tag, c => stepBeforeName tag c
  | .attributeName tag name, c =>
      if isSpace c then (.afterName tag name, [])
      else if c = '/' then (.selfClosing (tag.with name []), [])
      else if c = '>' then (.data, [(tag.with name []).token])
      else if c = '=' then (.beforeValue tag name, [])
      else (.attributeName tag (name ++ [c.toLower]), [])
  | .afterName tag name, c =>
      if c = '=' then (.beforeValue tag name, [])
      else if isSpace c then (.afterName tag name, [])
      else stepBeforeName (tag.with name []) c
  | .beforeValue tag name, c =>
      if isSpace c then (.beforeValue tag name, [])
      else if c = '"' ∨ c = '\'' then (.quoted c tag name [], [])
      else if c = '>' then (.data, [(tag.with name []).token])
      else (.unquoted tag name [c], [])
  | .quoted quote tag name value, c =>
      if c = quote then (.afterQuoted (tag.with name value), []) else (.quoted quote tag name (value ++ [c]), [])
  | .unquoted tag name value, c =>
      if isSpace c then (.beforeName (tag.with name value), [])
      else if c = '>' then (.data, [(tag.with name value).token])
      else (.unquoted tag name (value ++ [c]), [])
  | .afterQuoted tag, c => stepBeforeName tag c
  | .selfClosing tag, c => if c = '>' then (.data, [tag.token]) else stepBeforeName tag c
  | .bogus, c => if c = '>' then (.data, [.comment]) else (.bogus, [])

def run : State → List Char → State × List Token
  | state, [] => (state, [])
  | state, c :: rest => ((run (step state c).1 rest).1, (step state c).2 ++ (run (step state c).1 rest).2)

def tokens (text : List Char) : List Token := (run .data text).2

theorem run_append (state : State) (first second : List Char) :
    run state (first ++ second) =
      ((run (run state first).1 second).1, (run state first).2 ++ (run (run state first).1 second).2) := by
  induction first generalizing state with
  | nil => rfl
  | cons c rest ih => simp only [List.cons_append, run, ih, List.append_assoc]

end Tokens

section Forests

/-- The HTML references of the five characters with a meaning in markup. -/
def escapeChar (c : Char) : List Char :=
  if c = '&' then "&amp;".toList
  else if c = '\'' then "&#39;".toList
  else if c = '<' then "&lt;".toList
  else if c = '>' then "&gt;".toList
  else if c = '"' then "&#34;".toList
  else [c]

def escape (text : List Char) : List Char := text.flatMap escapeChar

/-- Nodes side by side; texts and attribute values are meant as they stand. -/
inductive Forest where
  | nil
  | text (content : List Char) (rest : Forest)
  | void (name : List Char) (attributes : List Attribute) (rest : Forest)
  | element (name : List Char) (attributes : List Attribute) (children rest : Forest)

namespace Forest

def append : Forest → Forest → Forest
  | nil, more => more
  | text content rest, more => text content (rest.append more)
  | void name attributes rest, more => void name attributes (rest.append more)
  | element name attributes children rest, more => element name attributes children (rest.append more)

def writeAttributes : List Attribute → List Char
  | [] => []
  | (name, value) :: rest => ' ' :: name ++ ('=' :: '"' :: escape value ++ '"' :: writeAttributes rest)

def write : Forest → List Char
  | nil => []
  | text content rest => escape content ++ rest.write
  | void name attributes rest => '<' :: name ++ (writeAttributes attributes ++ ('/' :: '>' :: rest.write))
  | element name attributes children rest =>
      '<' :: name ++ (writeAttributes attributes ++
        ('>' :: children.write ++ ('<' :: '/' :: name ++ '>' :: rest.write)))

def writtenAttributes (attributes : List Attribute) : List Attribute :=
  attributes.map fun attr => (attr.1, escape attr.2)

def events : Forest → List Token
  | nil => []
  | text content rest => (escape content).map .char ++ rest.events
  | void name attributes rest => .start name (writtenAttributes attributes) :: rest.events
  | element name attributes children rest =>
      .start name (writtenAttributes attributes) :: children.events ++ .close name :: rest.events

end Forest

structure Plain (name : List Char) : Prop where
  letter : ∃ c rest, name = c :: rest ∧ c.isAlpha = true
  solid : ∀ c ∈ name, c.toLower = c ∧ isSpace c = false ∧ c ≠ '/' ∧ c ≠ '>' ∧ c ≠ '='

def isPlain (name : List Char) : Bool :=
  name.head?.any Char.isAlpha &&
    name.all fun c => c.toLower = c && (!isSpace c && (c ≠ '/' && (c ≠ '>' && c ≠ '=')))

theorem Plain.of_isPlain {name : List Char} (plain : isPlain name = true) : Plain name := by
  rw [isPlain, Bool.and_eq_true, List.all_eq_true] at plain
  obtain ⟨first, solid⟩ := plain
  constructor
  · cases name with
    | nil => cases first
    | cons c rest => exact ⟨c, rest, rfl, by simpa using first⟩
  · intro c member
    simpa using solid c member

/-- Every element and every void element of the forest is of these kinds. -/
def Forest.All (elements voids : List Char → List Attribute → Prop) : Forest → Prop
  | nil => True
  | text _ rest => rest.All elements voids
  | void name attributes rest => voids name attributes ∧ rest.All elements voids
  | element name attributes children rest =>
      elements name attributes ∧ children.All elements voids ∧ rest.All elements voids

def PlainTag (name : List Char) (attributes : List Attribute) : Prop :=
  Plain name ∧ ∀ attr ∈ attributes, Plain attr.1

section Kinds
variable {elements voids elements' voids' : List Char → List Attribute → Prop} {forest more : Forest}

theorem Forest.All.mono (all : forest.All elements voids)
    (inner : ∀ name attributes, elements name attributes → elements' name attributes)
    (leaf : ∀ name attributes, voids name attributes → voids' name attributes) : forest.All elements' voids' := by
  induction forest with
  | nil => trivial
  | text content rest ih => exact ih all
  | void name attributes rest ih => exact ⟨leaf _ _ all.1, ih all.2⟩
  | element name attributes children rest ih_children ih =>
      exact ⟨inner _ _ all.1, ih_children all.2.1, ih all.2.2⟩

theorem Forest.All.append (all : forest.All elements voids) (all_more : more.All elements voids) :
    (forest.append more).All elements voids := by
  induction forest with
  | nil => exact all_more
  | text content rest ih => exact ih all
  | void name attributes rest ih => exact ⟨all.1, ih all.2⟩
  | element name attributes children rest ih_children ih => exact ⟨all.1, all.2.1, ih all.2.2⟩

theorem Forest.write_append (forest more : Forest) : (forest.append more).write = forest.write ++ more.write := by
  induction forest with
  | nil => rfl
  | text content rest ih => simp [Forest.append, Forest.write, ih]
  | void name attributes rest ih => simp [Forest.append, Forest.write, ih]
  | element name attributes children rest ih_children ih => simp [Forest.append, Forest.write, ih]

end Kinds

def isVoid (name : List Char) : Bool :=
  ["area", "base", "br", "col", "embed", "hr", "img", "input", "link", "meta", "source", "track", "wbr"].any
    fun void => void.toList == name

/-- The elements open after some tokens; an end tag has to close the innermost. -/
def openAfter : List (List Char) → List Token → Option (List (List Char))
  | stack, [] => some stack
  | stack, .start name _ :: rest => openAfter (if isVoid name then stack else name :: stack) rest
  | [], .close _ :: _ => none
  | top :: below, .close name :: rest => if top = name then openAfter below rest else none
  | stack, _ :: rest => openAfter stack rest

def Balanced (tokens : List Token) : Prop := openAfter [] tokens = some []

section Balance

theorem openAfter_chars (stack : List (List Char)) (text : List Char) (rest : List Token) :
    openAfter stack (text.map .char ++ rest) = openAfter stack rest := by
  induction text with
  | nil => rfl
  | cons c text ih =>
      rw [List.map_cons, List.cons_append]
      cases stack <;> exact ih

-- A forest leaves open what was open before it.
theorem openAfter_events {forest : Forest}
    (kinds : forest.All (fun name _ => isVoid name = false) (fun name _ => isVoid name = true))
    (stack : List (List Char)) (rest : List Token) : openAfter stack (forest.events ++ rest) = openAfter stack rest := by
  induction forest generalizing stack rest with
  | nil => rfl
  | text content tail ih =>
      rw [Forest.events, List.append_assoc, openAfter_chars]
      exact ih kinds stack rest
  | void name attributes tail ih =>
      have same : openAfter stack (.start name (Forest.writtenAttributes attributes) :: (tail.events ++ rest)) =
          openAfter stack (tail.events ++ rest) := by
        cases stack <;> rw [openAfter, if_pos kinds.1]
      exact same.trans (ih kinds.2 stack rest)
  | element name attributes children tail ih_children ih =>
      have opened : openAfter stack ((Forest.element name attributes children tail).events ++ rest) =
          openAfter (name :: stack) (children.events ++ (.close name :: (tail.events ++ rest))) := by
        have flat : (Forest.element name attributes children tail).events ++ rest =
            .start name (Forest.writtenAttributes attributes) ::
              (children.events ++ (.close name :: (tail.events ++ rest))) := by simp [Forest.events]
        rw [flat]
        cases stack <;> rw [openAfter, kinds.1] <;> rfl
      rw [opened, ih_children kinds.2.1, openAfter, if_pos rfl]
      exact ih kinds.2.2 stack rest

theorem balanced_events {forest : Forest}
    (kinds : forest.All (fun name _ => isVoid name = false) (fun name _ => isVoid name = true)) :
    Balanced forest.events := by
  have closed := openAfter_events kinds [] []
  rwa [List.append_nil] at closed

end Balance

section Escaping
variable {text : List Char} {c : Char}

theorem escapeChar_solid (d : Char) (member : c ∈ escapeChar d) : c ≠ '<' ∧ c ≠ '>' ∧ c ≠ '"' ∧ c ≠ '\'' := by
  have fixed (reference : String) (solid : (reference.toList.all fun c => c ≠ '<' && c ≠ '>' && c ≠ '"' && c ≠ '\'') = true)
      (member : c ∈ reference.toList) : c ≠ '<' ∧ c ≠ '>' ∧ c ≠ '"' ∧ c ≠ '\'' := by
    have here := List.all_eq_true.mp solid c member
    simpa [and_assoc] using here
  unfold escapeChar at member
  split at member
  · exact fixed "&amp;" (by decide) member
  · split at member
    · exact fixed "&#39;" (by decide) member
    · split at member
      · exact fixed "&lt;" (by decide) member
      · split at member
        · exact fixed "&gt;" (by decide) member
        · split at member
          · exact fixed "&#34;" (by decide) member
          · rw [List.mem_singleton] at member
            subst member
            exact ⟨‹_›, ‹_›, ‹_›, ‹_›⟩

-- Escaped text has no angle bracket and no quote.
theorem escape_solid (member : c ∈ escape text) : c ≠ '<' ∧ c ≠ '>' ∧ c ≠ '"' ∧ c ≠ '\'' := by
  obtain ⟨d, _, within⟩ := List.mem_flatMap.mp member
  exact escapeChar_solid d within

-- The tags among a forest's tokens are those of its elements.
theorem Forest.All.event {elements voids : List Char → List Attribute → Prop} {forest : Forest}
    (all : forest.All elements voids) {token : Token} (member : token ∈ forest.events) :
    (∃ c, token = .char c ∧ c ≠ '<' ∧ c ≠ '>') ∨
      (∃ name attributes, token = .start name (writtenAttributes attributes) ∧
        (elements name attributes ∨ voids name attributes)) ∨
      ∃ name attributes, token = .close name ∧ elements name attributes := by
  induction forest with
  | nil => cases member
  | text content rest ih =>
      rcases List.mem_append.mp member with here | later
      · obtain ⟨c, within, rfl⟩ := List.mem_map.mp here
        have solid := escape_solid within
        exact .inl ⟨c, rfl, solid.1, solid.2.1⟩
      · exact ih all later
  | void name attributes rest ih =>
      rcases List.mem_cons.mp member with rfl | later
      · exact .inr (.inl ⟨name, attributes, rfl, .inr all.1⟩)
      · exact ih all.2 later
  | element name attributes children rest ih_children ih =>
      rcases List.mem_append.mp member with inside | later
      · rcases List.mem_cons.mp inside with rfl | inside
        · exact .inr (.inl ⟨name, attributes, rfl, .inl all.1⟩)
        · exact ih_children all.2.1 inside
      · rcases List.mem_cons.mp later with rfl | later
        · exact .inr (.inr ⟨name, attributes, rfl, all.1⟩)
        · exact ih all.2.2 later

end Escaping

section Reading
variable {name : List Char} {tag : Tag} {quote : Char}

theorem run_chars {text : List Char} (plain : ∀ c ∈ text, c ≠ '<') : run .data text = (.data, text.map .char) := by
  induction text with
  | nil => rfl
  | cons c rest ih =>
      have here := plain c List.mem_cons_self
      have tail := ih fun d member => plain d (List.mem_cons_of_mem _ member)
      simp only [run, step, stepData, if_neg here, tail]
      rfl

theorem run_tagName (plain : ∀ c ∈ name, c.toLower = c ∧ isSpace c = false ∧ c ≠ '/' ∧ c ≠ '>' ∧ c ≠ '=') :
    run (.tagName tag) name = (.tagName { tag with name := tag.name ++ name }, []) := by
  induction name generalizing tag with
  | nil => simp [run]
  | cons c rest ih =>
      obtain ⟨lower, solid, slash, closing, _⟩ := plain c List.mem_cons_self
      have tail := @ih (tag.named c) fun d member => plain d (List.mem_cons_of_mem _ member)
      simp only [Tag.named, lower] at tail
      simp only [run, step, solid, if_neg slash, if_neg closing, Tag.named, lower]
      simp [tail]

theorem run_attributeName (started : List Char)
    (plain : ∀ c ∈ name, c.toLower = c ∧ isSpace c = false ∧ c ≠ '/' ∧ c ≠ '>' ∧ c ≠ '=') :
    run (.attributeName tag started) name = (.attributeName tag (started ++ name), []) := by
  induction name generalizing started with
  | nil => simp [run]
  | cons c rest ih =>
      obtain ⟨lower, solid, slash, closing, equals⟩ := plain c List.mem_cons_self
      have tail := ih (started ++ [c]) fun d member => plain d (List.mem_cons_of_mem _ member)
      simp only [run, step, solid, if_neg slash, if_neg closing, if_neg equals, lower]
      simp [tail]

theorem run_quoted {value : List Char} (started : List Char) (plain : ∀ c ∈ value, c ≠ quote) :
    run (.quoted quote tag name started) value = (.quoted quote tag name (started ++ value), []) := by
  induction value generalizing started with
  | nil => simp [run]
  | cons c rest ih =>
      have here := plain c List.mem_cons_self
      have tail := ih (started ++ [c]) fun d member => plain d (List.mem_cons_of_mem _ member)
      simp only [run, step, if_neg here, tail]
      simp

def Between (tag : Tag) (state : State) : Prop := state = .tagName tag ∨ state = .afterQuoted tag

theorem run_attribute {state : State} (between : Between tag state) (plain : Plain name) (value : List Char) :
    run state (' ' :: name ++ ('=' :: '"' :: escape value ++ ['"'])) =
      (.afterQuoted (tag.with name (escape value)), []) := by
  obtain ⟨⟨c, rest, rfl, letter⟩, solid⟩ := plain
  obtain ⟨lower, blank, slash, closing, equals⟩ := solid c List.mem_cons_self
  have blank_first : step state ' ' = (.beforeName tag, []) := by
    rcases between with rfl | rfl <;> rfl
  have named := @run_attributeName rest tag [c] fun d member => solid d (List.mem_cons_of_mem _ member)
  have valued := @run_quoted (c :: rest) tag '"' (escape value) [] fun d member => (escape_solid member).2.2.1
  have first : run state (' ' :: c :: rest) = (.attributeName tag (c :: rest), []) := by
    have begun : step (.beforeName tag) c = (.attributeName tag [c], []) := by
      simp [step, stepBeforeName, blank, slash, closing, lower]
    simp only [run, blank_first, begun, named]
    rfl
  have opened : run (.attributeName tag (c :: rest)) ['=', '"'] = (.quoted '"' tag (c :: rest) [], []) := rfl
  have split : ' ' :: (c :: rest) ++ ('=' :: '"' :: escape value ++ ['"']) =
      ' ' :: c :: rest ++ (['=', '"'] ++ (escape value ++ ['"'])) := by simp
  rw [split, run_append, first, run_append, opened, run_append, valued]
  rfl

theorem run_attributes {state : State} {attributes : List Attribute} (between : Between tag state)
    (plain : ∀ attr ∈ attributes, Plain attr.1) :
    ∃ after, run state (Forest.writeAttributes attributes) = (after, []) ∧
      Between { tag with attributes := tag.attributes ++ Forest.writtenAttributes attributes } after := by
  induction attributes generalizing tag state with
  | nil => exact ⟨state, rfl, by simpa [Forest.writtenAttributes] using between⟩
  | cons attr rest ih =>
      obtain ⟨name, value⟩ := attr
      have first := run_attribute between (plain _ List.mem_cons_self) value
      obtain ⟨after, read, ended⟩ := @ih (tag.with name (escape value)) _ (.inr rfl)
        fun other member => plain other (List.mem_cons_of_mem _ member)
      refine ⟨after, ?_, ?_⟩
      · have split : Forest.writeAttributes ((name, value) :: rest) =
            ' ' :: name ++ ('=' :: '"' :: escape value ++ ['"']) ++ Forest.writeAttributes rest := by
          simp [Forest.writeAttributes]
        rw [split, run_append, first, read]
        rfl
      · simpa [Tag.with, Forest.writtenAttributes] using ended

theorem run_open {attributes : List Attribute} (plain : Plain name)
    (plain_attributes : ∀ attr ∈ attributes, Plain attr.1) :
    ∃ after, run .data ('<' :: name ++ Forest.writeAttributes attributes) = (after, []) ∧
      Between ⟨false, name, Forest.writtenAttributes attributes⟩ after := by
  obtain ⟨⟨c, rest, rfl, letter⟩, solid⟩ := plain
  have lower := (solid c List.mem_cons_self).1
  have named := @run_tagName rest ⟨false, [c], []⟩ fun d member => solid d (List.mem_cons_of_mem _ member)
  have opened : run .data ('<' :: c :: rest) = (.tagName ⟨false, c :: rest, []⟩, []) := by
    have begun : step .tagOpen c = (.tagName ⟨false, [c], []⟩, []) := by simp [step, letter, lower]
    have bracket : step .data '<' = (.tagOpen, []) := rfl
    simp only [run, bracket, begun, named]
    rfl
  obtain ⟨after, read, ended⟩ := @run_attributes ⟨false, c :: rest, []⟩ _ attributes (.inl rfl) plain_attributes
  refine ⟨after, ?_, by simpa using ended⟩
  rw [run_append, opened, read]
  rfl

theorem run_start {attributes : List Attribute} (plain : Plain name)
    (plain_attributes : ∀ attr ∈ attributes, Plain attr.1) (rest : List Char) :
    run .data ('<' :: name ++ (Forest.writeAttributes attributes ++ '>' :: rest)) =
      ((run .data rest).1, .start name (Forest.writtenAttributes attributes) :: (run .data rest).2) := by
  obtain ⟨after, read, between⟩ := run_open plain plain_attributes
  have ended : run after ['>'] = (.data, [.start name (Forest.writtenAttributes attributes)]) := by
    rcases between with rfl | rfl <;> rfl
  have split : '<' :: name ++ (Forest.writeAttributes attributes ++ '>' :: rest) =
      '<' :: name ++ Forest.writeAttributes attributes ++ (['>'] ++ rest) := by simp
  rw [split, run_append, read, run_append, ended]
  rfl

theorem run_void {attributes : List Attribute} (plain : Plain name)
    (plain_attributes : ∀ attr ∈ attributes, Plain attr.1) (rest : List Char) :
    run .data ('<' :: name ++ (Forest.writeAttributes attributes ++ '/' :: '>' :: rest)) =
      ((run .data rest).1, .start name (Forest.writtenAttributes attributes) :: (run .data rest).2) := by
  obtain ⟨after, read, between⟩ := run_open plain plain_attributes
  have ended : run after ['/', '>'] = (.data, [.start name (Forest.writtenAttributes attributes)]) := by
    rcases between with rfl | rfl <;> rfl
  have split : '<' :: name ++ (Forest.writeAttributes attributes ++ '/' :: '>' :: rest) =
      '<' :: name ++ Forest.writeAttributes attributes ++ (['/', '>'] ++ rest) := by simp
  rw [split, run_append, read, run_append, ended]
  rfl

theorem run_close (plain : Plain name) (rest : List Char) :
    run .data ('<' :: '/' :: name ++ '>' :: rest) = ((run .data rest).1, .close name :: (run .data rest).2) := by
  obtain ⟨⟨c, tail, rfl, letter⟩, solid⟩ := plain
  have lower := (solid c List.mem_cons_self).1
  have named := @run_tagName tail ⟨true, [c], []⟩ fun d member => solid d (List.mem_cons_of_mem _ member)
  have opened : run .data ('<' :: '/' :: c :: tail) = (.tagName ⟨true, c :: tail, []⟩, []) := by
    have begun : step .endTagOpen c = (.tagName ⟨true, [c], []⟩, []) := by simp [step, letter, lower]
    have bracket : step .data '<' = (.tagOpen, []) := rfl
    have slash : step .tagOpen '/' = (.endTagOpen, []) := by decide
    simp only [run, bracket, slash, begun, named]
    rfl
  have ended : run (.tagName ⟨true, c :: tail, []⟩) ['>'] = (.data, [.close (c :: tail)]) := rfl
  have split : '<' :: '/' :: (c :: tail) ++ '>' :: rest = '<' :: '/' :: c :: tail ++ (['>'] ++ rest) := by simp
  rw [split, run_append, opened, run_append, ended]
  rfl

/-- A forest is read back as it was written: what its texts and values hold makes no tag
and no attribute. -/
theorem run_write {forest : Forest} (named : forest.All PlainTag PlainTag) : run .data forest.write = (.data, forest.events) := by
  induction forest with
  | nil => rfl
  | text content rest ih =>
      rw [Forest.write, run_append, run_chars fun c member => (escape_solid member).1, ih named]
      rfl
  | void name attributes rest ih =>
      obtain ⟨⟨plain, plain_attributes⟩, named⟩ := named
      rw [Forest.write, run_void plain plain_attributes, ih named]
      rfl
  | element name attributes children rest ih_children ih =>
      obtain ⟨⟨plain, plain_attributes⟩, named_children, named⟩ := named
      have inside : run .data (children.write ++ ('<' :: '/' :: name ++ '>' :: rest.write)) =
          (.data, children.events ++ .close name :: rest.events) := by
        rw [run_append, ih_children named_children]
        dsimp only
        rw [run_close plain, ih named]
      have split : (Forest.element name attributes children rest).write =
          '<' :: name ++ (Forest.writeAttributes attributes ++
            '>' :: (children.write ++ ('<' :: '/' :: name ++ '>' :: rest.write))) := by simp [Forest.write]
      rw [split, run_start plain plain_attributes, inside]
      rfl

theorem tokens_write {forest : Forest} (named : forest.All PlainTag PlainTag) : tokens forest.write = forest.events := by
  rw [tokens, run_write named]

end Reading
end Forests

end Markup
