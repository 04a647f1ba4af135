import Payknot.AgentSignature
import Payknot.Hosts

/-! What a request signature is bound to. Method, path, timestamp and body hash are joined by
line feeds and nothing is escaped; the path is the one field that may hold a line feed
itself, and it stands between fields that cannot. -/
namespace Payknot
open GoText

section Joins
variable {Symbol : Type} {sep : Symbol}

theorem join_first {first first' rest rest' : List Symbol} (plain : sep ∉ first) (plain' : sep ∉ first')
    (same : first ++ sep :: rest = first' ++ sep :: rest') : first = first' ∧ rest = rest' := by
  induction first generalizing first' with
  | nil =>
      cases first' with
      | nil => exact ⟨rfl, (List.cons.inj same).2⟩
      | cons c others =>
          have head := (List.cons.inj same).1
          exact absurd (head ▸ List.mem_cons_self) plain'
  | cons c others ih =>
      cases first' with
      | nil =>
          have head := (List.cons.inj same).1
          exact absurd (head ▸ List.mem_cons_self) plain
      | cons c' others' =>
          obtain ⟨rfl, tails⟩ := List.cons.inj same
          obtain ⟨rfl, rests⟩ := ih (fun member => plain (List.mem_cons_of_mem _ member))
            (fun member => plain' (List.mem_cons_of_mem _ member)) tails
          exact ⟨rfl, rests⟩

-- The last field begins after the last separator.
theorem join_last {last last' rest rest' : List Symbol} (plain : sep ∉ last) (plain' : sep ∉ last')
    (same : rest ++ sep :: last = rest' ++ sep :: last') : rest = rest' ∧ last = last' := by
  have mirrored := congrArg List.reverse same
  simp only [List.reverse_append, List.reverse_cons, List.append_assoc, List.singleton_append] at mirrored
  obtain ⟨lasts, rests⟩ := join_first (by simpa using plain) (by simpa using plain') mirrored
  exact ⟨List.reverse_injective rests, List.reverse_injective lasts⟩

end Joins

section Texts

/-- `toList` walks the bytes by index. -/
theorem byteArray_toList_loop (bs : ByteArray) (i : Nat) (seen : Bytes) :
    ByteArray.toList.loop bs i seen = seen.reverse ++ bs.data.toList.drop i := by
  fun_induction ByteArray.toList.loop bs i seen with
  | case1 i seen inside ih =>
      rw [ih, List.reverse_cons, List.append_assoc, List.singleton_append]
      have within : i < bs.data.toList.length := by simpa using inside
      have here : bs.get! i = bs.data.toList[i] := by
        simp [ByteArray.get!, inside]
      rw [here, List.getElem_cons_drop]
  | case2 i seen outside =>
      rw [List.drop_eq_nil_of_le (by simpa using outside), List.append_nil]

theorem byteArray_toList (bs : ByteArray) : bs.toList = bs.data.toList := by
  rw [ByteArray.toList, byteArray_toList_loop]
  rfl

def lineFeed : UInt8 := 10

def bytesOf (text : String) : Bytes := text.toUTF8.toList

theorem bytesOf_eq (text : String) : bytesOf text = text.toList.flatMap String.utf8EncodeChar := by
  rw [bytesOf, byteArray_toList, String.toUTF8_eq_toByteArray, ← String.utf8Encode_toList, List.utf8Encode,
    List.toList_data_toByteArray]

theorem bytesOf_injective {first second : String} (same : bytesOf first = bytesOf second) : first = second := by
  rw [bytesOf, bytesOf, byteArray_toList, byteArray_toList] at same
  exact String.toByteArray_inj.mp (ByteArray.ext (Array.toList_inj.mp same))

def PlainText (text : String) : Prop := ∀ c ∈ text.toList, c.val ≤ 127 ∧ c ≠ '\n'

theorem PlainText.lineFeed {text : String} (plain : PlainText text) : lineFeed ∉ bytesOf text := by
  intro member
  rw [bytesOf_eq, List.mem_flatMap] at member
  obtain ⟨c, among, inside⟩ := member
  obtain ⟨ascii, other⟩ := plain c among
  rw [String.utf8EncodeChar_eq_singleton (Char.utf8Size_eq_one_iff.mpr ascii), List.mem_singleton] at inside
  apply other
  apply Char.ext
  have value := congrArg UInt8.toNat inside
  rw [UInt32.toNat_toUInt8] at value
  have small : c.val.toNat ≤ 127 := ascii
  rw [Nat.mod_eq_of_lt (by omega)] at value
  exact UInt32.toNat_inj.mp value.symm

end Texts

section Fields
variable {c : Crypto}

/-- `tchar`, the characters of an HTTP method. -/
def isTokenChar (c : Char) : Bool :=
  c.isAlphanum || c ∈ ['!', '#', '$', '%', '&', '\'', '*', '+', '-', '.', '^', '_', '\x60', '|', '~']

/-- A method as net/http lets it through: `1*tchar`. -/
structure IsToken (method : String) : Prop where
  some_char : method ≠ ""
  chars : ∀ c ∈ method.toList, isTokenChar c = true

theorem isAlphanum_ascii {c : Char} (alphanum : c.isAlphanum = true) : c.val ≤ 127 ∧ c ≠ '\n' := by
  constructor
  · change ((decide ('A'.val ≤ c.val ∧ c.val ≤ 'Z'.val) || (decide ('a'.val ≤ c.val) && decide (c.val ≤ 'z'.val))) ||
      (decide ('0'.val ≤ c.val) && decide (c.val ≤ '9'.val))) = true at alphanum
    simp only [Bool.or_eq_true, Bool.and_eq_true, decide_eq_true_eq] at alphanum
    rcases alphanum with (⟨_, upper⟩ | ⟨_, lower⟩) | ⟨_, digit⟩
    · exact UInt32.le_trans upper (by decide)
    · exact UInt32.le_trans lower (by decide)
    · exact UInt32.le_trans digit (by decide)
  · rintro rfl
    exact absurd alphanum (by decide)

theorem IsToken.plain {method : String} (token : IsToken method) : PlainText method := by
  intro c member
  have char := token.chars c member
  rw [isTokenChar, Bool.or_eq_true, decide_eq_true_eq] at char
  rcases char with alphanum | listed
  · exact isAlphanum_ascii alphanum
  · have checked : (['!', '#', '$', '%', '&', '\'', '*', '+', '-', '.', '^', '_', '\x60', '|', '~'].all
        fun d => d.val ≤ 127 ∧ d ≠ '\n') = true := by decide
    simpa using List.all_eq_true.mp checked c listed

/-- What `ParseInt` accepts is a sign and digits. -/
theorem plain_of_parseInt {text : String} {value : Int64} (parsed : parseInt text = .ok value) :
    PlainText text := by
  have digits {negative : Bool} {rest : List Char} (read : parseDigits text negative rest = .ok value) :
      ∀ c ∈ rest, c.val ≤ 127 ∧ c ≠ '\n' := by
    intro c member
    unfold parseDigits at read
    split at read
    · cases read
    · next good =>
      simp only [Bool.or_eq_true, Bool.not_eq_true', not_or, Bool.not_eq_false, List.all_eq_true] at good
      exact isAlphanum_ascii (by simp [Char.isAlphanum, good.2 c member])
  unfold PlainText
  unfold parseInt at parsed
  split at parsed
  · next rest same =>
    rw [same]
    intro c member
    rcases List.mem_cons.mp member with rfl | later
    · decide
    · exact digits parsed c later
  · next rest same =>
    rw [same]
    intro c member
    rcases List.mem_cons.mp member with rfl | later
    · decide
    · exact digits parsed c later
  · exact digits parsed

theorem hexDigit_plain {n : UInt8} (small : n < 16) : (hexDigit n).val ≤ 127 ∧ hexDigit n ≠ '\n' := by
  have digits : ∀ i : Fin 16, (hexDigit (UInt8.ofNat i)).val ≤ 127 ∧
      hexDigit (UInt8.ofNat i) ≠ '\n' := by decide
  rw [UInt8.lt_iff_toNat_lt] at small
  simpa using digits ⟨n.toNat, small⟩

theorem hexEncode_plain (data : Bytes) : PlainText (hexEncode data) := by
  intro c member
  rw [hexEncode, String.toList_ofList, List.mem_flatMap] at member
  obtain ⟨byte, _, digit⟩ := member
  rcases List.mem_pair.mp digit with rfl | rfl
  · exact hexDigit_plain (halves_small byte).1
  · exact hexDigit_plain (halves_small byte).2

def canonicalBytes (c : Crypto) (method : String) (path : Bytes) (tsRaw : String) (body : Bytes) : Bytes :=
  [lineFeed].intercalate [bytesOf method, path, bytesOf tsRaw, bytesOf (hexEncode (c.sha256 body))]

theorem canonicalBytes_eq (method : String) (path : Bytes) (tsRaw : String) (body : Bytes) :
    canonicalBytes c method path tsRaw body = bytesOf method ++ lineFeed :: (path ++ lineFeed ::
      (bytesOf tsRaw ++ lineFeed :: bytesOf (hexEncode (c.sha256 body)))) := by
  simp [canonicalBytes, List.intercalate_cons_cons]

theorem canonical_eq (method path tsRaw : String) (body : Bytes) :
    canonical c method path tsRaw body = canonicalBytes c method (bytesOf path) tsRaw body := by
  have line : String.utf8EncodeChar '\n' = [lineFeed] := by decide
  rw [canonicalBytes_eq]
  change bytesOf _ = _
  simp [bytesOf_eq, line]

/-- The signed string has a request's four parts between its line feeds, and a path may hold
more of them: equal strings, equal parts. -/
theorem canonical_identifies {method method' tsRaw tsRaw' : String} {path path' body body' : Bytes}
    {ts ts' : Int64} (token : IsToken method) (token' : IsToken method') (parsed : parseInt tsRaw = .ok ts)
    (parsed' : parseInt tsRaw' = .ok ts')
    (same : canonicalBytes c method path tsRaw body = canonicalBytes c method' path' tsRaw' body') :
    method = method' ∧ path = path' ∧ tsRaw = tsRaw' ∧ c.sha256 body = c.sha256 body' ∧
      (Function.Injective c.sha256 → body = body') := by
  rw [canonicalBytes_eq, canonicalBytes_eq] at same
  -- The method is read from the front, hash and timestamp from the back.
  obtain ⟨methods, rest⟩ := join_first token.plain.lineFeed token'.plain.lineFeed same
  have grouped (path tail hash : Bytes) : path ++ lineFeed :: (tail ++ lineFeed :: hash) =
      (path ++ lineFeed :: tail) ++ lineFeed :: hash := by simp
  rw [grouped, grouped] at rest
  obtain ⟨rest, hashes⟩ := join_last (hexEncode_plain _).lineFeed (hexEncode_plain _).lineFeed rest
  obtain ⟨paths, stamps⟩ := join_last (plain_of_parseInt parsed).lineFeed
    (plain_of_parseInt parsed').lineFeed rest
  have digests := hexEncode_injective (bytesOf_injective hashes)
  exact ⟨bytesOf_injective methods, paths, bytesOf_injective stamps, digests,
    fun injective => injective digests⟩

open AgentKeys.Hosts in
theorem canonical_identifies_meetup :
    let c := (environment "").toCrypto
    let path := bytesOf "/api/agent/events\n1754000000"
    "POST" = "POST" ∧ path = path ∧ "1754000000" = "1754000000" ∧ c.sha256 [] = c.sha256 [] ∧
      (Function.Injective c.sha256 → ([] : Bytes) = []) :=
  have token : IsToken "POST" := ⟨by decide, List.all_eq_true.mp (by decide)⟩
  have parsed : parseInt "1754000000" = .ok 1754000000 := by decide +kernel
  canonical_identifies token token parsed parsed rfl

end Fields
end Payknot
