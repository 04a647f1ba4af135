import Mathlib.Data.List.DropRight
import Mathlib.Data.List.Infix
import Mathlib.Data.String.Basic

/-! The part of Go's standard library that handlers decide with: white space,
field splitting, decimal int64 text, byte search and decoded JSON values. Case
mapping and float formatting are parameters wherever they are used. -/
namespace GoText

section Trimming
variable {Symbol : Type} {cut : Symbol → Bool}

-- What both ends are cut off from is part of the text.
theorem trimmed_part (cut : Symbol → Bool) (text : List Symbol) :
    (text.dropWhile cut).rdropWhile cut <:+: text :=
  (List.rdropWhile_prefix cut _).isInfix.trans (List.dropWhile_suffix cut).isInfix

theorem trimmed_head {text : List Symbol} {c : Symbol}
    (head : c ∈ ((text.dropWhile cut).rdropWhile cut).head?) : cut c = false := by
  obtain ⟨rest, same⟩ := List.head?_eq_some_iff.mp head
  obtain ⟨dropped, whole⟩ := List.rdropWhile_prefix cut (text.dropWhile cut)
  rw [same] at whole
  have first := List.head?_dropWhile_not cut text
  rw [← whole] at first
  simpa using first

theorem trimmed_last {text : List Symbol} {c : Symbol}
    (last : c ∈ ((text.dropWhile cut).rdropWhile cut).getLast?) : cut c = false := by
  have some_left : (text.dropWhile cut).rdropWhile cut ≠ [] := by
    intro none_left
    simp [none_left] at last
  rw [List.getLast?_eq_some_getLast some_left, Option.mem_some_iff] at last
  have kept := List.rdropWhile_last_not cut (text.dropWhile cut) some_left
  rw [last] at kept
  simpa using kept

-- Text that neither end is cut off from stays as it is.
theorem trimmed_self {text : List Symbol} (front : ∀ c ∈ text.head?, cut c = false)
    (back : ∀ c ∈ text.getLast?, cut c = false) : (text.dropWhile cut).rdropWhile cut = text := by
  have from_front : text.dropWhile cut = text := by
    rw [List.dropWhile_eq_self_iff]
    intro some_symbol
    rw [front _ (by rw [List.head?_eq_getElem?]; exact List.getElem?_eq_getElem some_symbol)]
    simp
  have from_back : text.rdropWhile cut = text := by
    rw [List.rdropWhile_eq_self_iff]
    intro some_symbol
    rw [back _ (List.getLast?_eq_some_getLast some_symbol)]
    simp
  rw [from_front, from_back]

theorem trimmed_trimmed (cut : Symbol → Bool) (text : List Symbol) :
    (((text.dropWhile cut).rdropWhile cut).dropWhile cut).rdropWhile cut =
      (text.dropWhile cut).rdropWhile cut :=
  trimmed_self (fun _ => trimmed_head) fun _ => trimmed_last

end Trimming

/-- `unicode.IsSpace`: the White_Space property. -/
def isSpace (c : Char) : Bool :=
  c ∈ ['\t', '\n', '\x0b', '\x0c', '\r', ' ', '\x85', '\xa0', '\u1680', '\u2028', '\u2029',
    '\u202f', '\u205f', '\u3000'] || ('\u2000' ≤ c && c ≤ '\u200a')

def trimRunes (text : List Char) : List Char :=
  (text.dropWhile isSpace).rdropWhile isSpace

def trimSpace (text : String) : String := String.ofList (trimRunes text.toList)

-- Trimmed text has no white space left at either end.
theorem trimRunes_trimRunes (text : List Char) : trimRunes (trimRunes text) = trimRunes text :=
  trimmed_trimmed isSpace text

@[simp] theorem trimSpace_trimSpace (text : String) : trimSpace (trimSpace text) = trimSpace text := by
  simp [trimSpace, trimRunes_trimRunes]

-- Text without white space at either end stays as it is.
theorem trimSpace_self {text : String} (front : ∀ c ∈ text.toList.head?, isSpace c = false)
    (back : ∀ c ∈ text.toList.getLast?, isSpace c = false) : trimSpace text = text := by
  rw [trimSpace, trimRunes, trimmed_self front back, String.ofList_toList]

/-- `strings.Fields` over runes: maximal runs of non-space characters. -/
def fieldRunes : List Char → List Char → List (List Char)
  | [], [] => []
  | [], word => [word.reverse]
  | c :: rest, word =>
      if isSpace c then
        if word.isEmpty then fieldRunes rest [] else word.reverse :: fieldRunes rest []
      else fieldRunes rest (c :: word)

def fields (text : String) : List String := (fieldRunes text.toList []).map String.ofList

section Words

structure IsWord (word : List Char) : Prop where
  some_rune : word ≠ []
  solid : ∀ c ∈ word, isSpace c = false

theorem isWord_fieldRunes {text word : List Char} (solid : ∀ c ∈ word, isSpace c = false) :
    ∀ w ∈ fieldRunes text word, IsWord w := by
  have close (left : word ≠ []) : IsWord word.reverse :=
    ⟨by simpa using left, fun c member => solid c (List.mem_reverse.mp member)⟩
  induction text generalizing word with
  | nil =>
      cases word with
      | nil => simp [fieldRunes]
      | cons c rest =>
          intro w member
          rw [fieldRunes, List.mem_singleton] at member
          · rw [member]
            exact close (by simp)
          · simp
  | cons c rest ih =>
      have start : ∀ w ∈ fieldRunes rest [], IsWord w := ih (by simp) (by simp)
      intro w member
      rw [fieldRunes] at member
      split at member
      · split at member
        · exact start w member
        · next left =>
          rcases List.mem_cons.mp member with rfl | later
          · exact close (by simpa using left)
          · exact start w later
      · next solid_c =>
        have grown : ∀ d ∈ c :: word, isSpace d = false := by
          intro d among
          rcases List.mem_cons.mp among with rfl | older
          · simpa using solid_c
          · exact solid d older
        exact ih grown (fun _ => ⟨by simp, fun d among => grown d (List.mem_reverse.mp among)⟩) w member

theorem fieldRunes_append {word : List Char} (solid : ∀ c ∈ word, isSpace c = false) (rest seen : List Char) :
    fieldRunes (word ++ rest) seen = fieldRunes rest (word.reverse ++ seen) := by
  induction word generalizing seen with
  | nil => rfl
  | cons c word ih =>
      have here := solid c List.mem_cons_self
      rw [List.cons_append, fieldRunes, if_neg (by simp [here]),
        ih (fun d member => solid d (List.mem_cons_of_mem _ member))]
      simp

theorem fieldRunes_word {word : List Char} (is_word : IsWord word) : fieldRunes word [] = [word] := by
  have read := fieldRunes_append is_word.solid [] []
  rw [List.append_nil, List.append_nil] at read
  rw [read, fieldRunes, List.reverse_reverse]
  simpa using is_word.some_rune

theorem fieldRunes_join {words : List (List Char)} (all : ∀ word ∈ words, IsWord word) :
    fieldRunes ([' '].intercalate words) [] = words := by
  induction words with
  | nil => simp [fieldRunes]
  | cons word rest ih =>
      have first := all word List.mem_cons_self
      have later := ih fun other member => all other (List.mem_cons_of_mem _ member)
      cases rest with
      | nil => rw [List.intercalate_singleton, fieldRunes_word first]
      | cons next rest =>
          rw [List.intercalate_cons_cons, List.append_assoc, fieldRunes_append first.solid, List.singleton_append,
            fieldRunes, if_pos (by decide), List.append_nil, if_neg (by simpa using first.some_rune),
            List.reverse_reverse, later]

end Words

def trimPrefixRunes (start text : List Char) : List Char :=
  if start.isPrefixOf text then text.drop start.length else text

/-- `strings.TrimPrefix(text, start)`. -/
def trimPrefix (text start : String) : String :=
  String.ofList (trimPrefixRunes start.toList text.toList)

/-- `strings.TrimSuffix(text, ending)`. -/
def trimSuffix (text ending : String) : String :=
  String.ofList (trimPrefixRunes ending.toList.reverse text.toList.reverse).reverse

/-- `strings.Split(text, sep)` with a one-rune separator. -/
def splitRunes (sep : Char) : List Char → List (List Char)
  | [] => [[]]
  | c :: rest =>
      if c = sep then [] :: splitRunes sep rest
      else match splitRunes sep rest with
        | [] => [[c]]
        | word :: words => (c :: word) :: words

def split (text : String) (sep : Char) : List String :=
  (splitRunes sep text.toList).map String.ofList

theorem splitRunes_word {sep : Char} {word : List Char} (absent : sep ∉ word) :
    splitRunes sep word = [word] := by
  induction word with
  | nil => rfl
  | cons c rest ih =>
      obtain ⟨different, absent⟩ := List.ne_and_not_mem_of_not_mem_cons absent
      rw [splitRunes, if_neg (Ne.symm different), ih absent]

theorem splitRunes_append {sep : Char} {word : List Char} (absent : sep ∉ word) (rest : List Char) :
    splitRunes sep (word ++ sep :: rest) = word :: splitRunes sep rest := by
  induction word with
  | nil => simp [splitRunes]
  | cons c word ih =>
      obtain ⟨different, absent⟩ := List.ne_and_not_mem_of_not_mem_cons absent
      rw [List.cons_append, splitRunes, if_neg (Ne.symm different), ih absent]

-- Words without the separator are split apart again where they were joined.
theorem split_append {sep : Char} {word : String} (absent : sep ∉ word.toList) (rest : String) :
    split (word ++ String.singleton sep ++ rest) sep = word :: split rest sep := by
  simp only [split, String.toList_append, String.toList_singleton, List.append_assoc,
    List.singleton_append]
  rw [splitRunes_append absent, List.map_cons, String.ofList_toList]

theorem split_word {sep : Char} {word : String} (absent : sep ∉ word.toList) :
    split word sep = [word] := by
  rw [split, splitRunes_word absent, List.map_singleton, String.ofList_toList]

theorem split_dotted {first second third : String} (first_plain : '.' ∉ first.toList)
    (second_plain : '.' ∉ second.toList) (third_plain : '.' ∉ third.toList) :
    split (first ++ "." ++ second ++ "." ++ third) '.' = [first, second, third] := by
  have grouped : first ++ "." ++ second ++ "." ++ third =
      first ++ String.singleton '.' ++ (second ++ String.singleton '.' ++ third) := by
    simp only [String.append_assoc]
    rfl
  rw [grouped, split_append first_plain, split_append second_plain, split_word third_plain]

/-- `strings.HasPrefix(text, start)`. -/
def hasPrefix (text start : String) : Bool := start.toList.isPrefixOf text.toList

/-- The longest rune prefix of exactly at most `size` bytes; `none` when the byte
cut `text[:size]` falls inside a character. -/
def cutRunes : List Char → Nat → Option (List Char)
  | _, 0 => some []
  | [], _ => some []
  | c :: rest, size =>
      if c.utf8Size ≤ size then (cutRunes rest (size - c.utf8Size)).map (c :: ·) else none

def toLower (lowerRune : Char → Char) (text : String) : String :=
  String.ofList (text.toList.map lowerRune)

/-- `strings.Contains(string(data), text)`. -/
def containsText (data : List UInt8) (text : String) : Bool :=
  decide (text.toUTF8.toList <:+: data)

/-- `strconv.FormatInt(value, 10)`. -/
def formatInt (value : Int64) : String :=
  match value.toInt with
  | .ofNat n => String.ofList (Nat.toDigits 10 n)
  | .negSucc n => String.ofList ('-' :: Nat.toDigits 10 (n + 1))

def invalidSyntax (text : String) : String :=
  "strconv.ParseInt: parsing \"" ++ text ++ "\": invalid syntax"

def outOfRange (text : String) : String :=
  "strconv.ParseInt: parsing \"" ++ text ++ "\": value out of range"

def parseDigits (text : String) (negative : Bool) (digits : List Char) : Except String Int64 :=
  if digits.isEmpty || !digits.all Char.isDigit then .error (invalidSyntax text)
  else
    let magnitude := Nat.ofDigitChars 10 digits 0
    if negative then
      if magnitude ≤ 2 ^ 63 then .ok (Int64.ofInt (-(magnitude : Int))) else .error (outOfRange text)
    else if magnitude < 2 ^ 63 then .ok (Int64.ofInt magnitude) else .error (outOfRange text)

/-- `strconv.ParseInt(text, 10, 64)`. -/
def parseInt (text : String) : Except String Int64 :=
  match text.toList with
  | '-' :: digits => parseDigits text true digits
  | '+' :: digits => parseDigits text false digits
  | digits => parseDigits text false digits

theorem toDigits_digits (n : Nat) :
    (Nat.toDigits 10 n).isEmpty = false ∧ (Nat.toDigits 10 n).all Char.isDigit = true := by
  constructor
  · simp [Nat.toDigits_ne_nil]
  · exact List.all_eq_true.mpr fun c member =>
      Nat.isDigit_of_mem_toDigits (by omega) (by omega) member

theorem parseDigits_toDigits (text : String) (negative : Bool) (n : Nat)
    (fits : if negative then n ≤ 2 ^ 63 else n < 2 ^ 63) :
    parseDigits text negative (Nat.toDigits 10 n) =
      .ok (Int64.ofInt (if negative then -(n : Int) else n)) := by
  obtain ⟨some_digit, all_digits⟩ := toDigits_digits n
  unfold parseDigits
  rw [some_digit, all_digits, Nat.ofDigitChars_ten_toDigits]
  cases negative
  · simpa using fits
  · simpa using fits

theorem toDigits_head (n : Nat) (c : Char) (rest : List Char)
    (head : Nat.toDigits 10 n = c :: rest) : c ≠ '-' ∧ c ≠ '+' := by
  have digit : c.isDigit = true :=
    Nat.isDigit_of_mem_toDigits (b := 10) (n := n) (by omega) (by omega) (by rw [head]; simp)
  constructor
  · rintro rfl
    exact absurd digit (by decide)
  · rintro rfl
    exact absurd digit (by decide)

-- Decimal int64 text written by one side is read back unchanged by the other.
@[simp] theorem parseInt_formatInt (value : Int64) : parseInt (formatInt value) = .ok value := by
  have lower := value.le_toInt
  have upper := value.toInt_lt
  have back := value.ofInt_toInt
  unfold formatInt
  cases size : value.toInt with
  | ofNat n =>
      rw [size] at back upper
      have fits : n < 2 ^ 63 := by
        have := upper
        simp only [Int.ofNat_eq_natCast] at this
        omega
      simp only [parseInt, String.toList_ofList]
      cases digits : Nat.toDigits 10 n with
      | nil => exact absurd digits Nat.toDigits_ne_nil
      | cons c rest =>
          obtain ⟨not_minus, not_plus⟩ := toDigits_head n c rest digits
          have parsed := parseDigits_toDigits (String.ofList (c :: rest)) false n (by simpa using fits)
          rw [digits] at parsed
          split
          · next same => exact absurd (List.cons.inj same).1 not_minus
          · next same => exact absurd (List.cons.inj same).1 not_plus
          · rw [parsed]
            simpa using back
  | negSucc n =>
      rw [size] at back lower
      have fits : n + 1 ≤ 2 ^ 63 := by
        have := lower
        simp only [Int.negSucc_eq] at this
        omega
      simp only [parseInt, String.toList_ofList]
      rw [parseDigits_toDigits _ true (n + 1) (by simpa using fits)]
      simpa [Int.negSucc_eq] using back

/-- A value decoded by `encoding/json` into `interface{}`, or a jsonb document. A
number is the bit pattern of its float64. -/
inductive Json where
  | null
  | bool (value : Bool)
  | num (bits : UInt64)
  | str (value : String)
  | arr (items : List Json)
  | obj (members : List (String × Json))

abbrev Object := List (String × Json)

def lookup (members : Object) (key : String) : Json :=
  match members.find? fun member => member.1 == key with
  | some member => member.2
  | none => .null

def lookupMap (members : Option Object) (key : String) : Json :=
  match members with
  | some members => lookup members key
  | none => .null

section Sprint
variable (sprintFloat : UInt64 → String)

mutual
/-- `fmt.Sprint` of one decoded value; maps print in sorted key order. -/
def sprint : Json → String
  | .null => "<nil>"
  | .bool true => "true"
  | .bool false => "false"
  | .num bits => sprintFloat bits
  | .str value => value
  | .arr items => "[" ++ " ".intercalate (sprintItems items) ++ "]"
  | .obj members =>
      "map[" ++ " ".intercalate
        (((sprintMembers members).mergeSort fun a b => decide (a.1 ≤ b.1)).map
          fun member => member.1 ++ ":" ++ member.2) ++ "]"
def sprintItems : List Json → List String
  | [] => []
  | item :: rest => sprint item :: sprintItems rest
def sprintMembers : List (String × Json) → List (String × String)
  | [] => []
  | (key, value) :: rest => (key, sprint value) :: sprintMembers rest
end

end Sprint

end GoText
