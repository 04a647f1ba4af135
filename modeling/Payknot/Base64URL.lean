import Mathlib.Data.List.Basic
import Mathlib.Data.UInt

/-! Unpadded base64 over the URL alphabet. Decoding skips line breaks and ignores the bits
that a last symbol has too many. -/
namespace Base64URL

def symbol (n : Nat) : Char :=
  if n < 26 then Char.ofNat (n + 65)
  else if n < 52 then Char.ofNat (n + 71)
  else if n < 62 then Char.ofNat (n - 4)
  else if n = 62 then '-' else '_'

def value (c : Char) : Option Nat :=
  if 'A' ≤ c ∧ c ≤ 'Z' then some (c.toNat - 65)
  else if 'a' ≤ c ∧ c ≤ 'z' then some (c.toNat - 71)
  else if '0' ≤ c ∧ c ≤ '9' then some (c.toNat + 4)
  else if c = '-' then some 62
  else if c = '_' then some 63
  else none

def encodeBytes : List UInt8 → List Char
  | [] => []
  | [a] => [symbol (a.toNat / 4), symbol (a.toNat % 4 * 16)]
  | [a, b] => [symbol (a.toNat / 4), symbol (a.toNat % 4 * 16 + b.toNat / 16), symbol (b.toNat % 16 * 4)]
  | a :: b :: c :: rest =>
      symbol (a.toNat / 4) :: symbol (a.toNat % 4 * 16 + b.toNat / 16) ::
        symbol (b.toNat % 16 * 4 + c.toNat / 64) :: symbol (c.toNat % 64) :: encodeBytes rest

def decodeSymbols : List Char → Option (List UInt8)
  | [] => some []
  | [_] => none
  | [s, t] => do
      let s ← value s
      let t ← value t
      return [UInt8.ofNat (s * 4 + t / 16)]
  | [s, t, u] => do
      let s ← value s
      let t ← value t
      let u ← value u
      return [UInt8.ofNat (s * 4 + t / 16), UInt8.ofNat (t % 16 * 16 + u / 4)]
  | s :: t :: u :: v :: rest => do
      let s ← value s
      let t ← value t
      let u ← value u
      let v ← value v
      let bytes ← decodeSymbols rest
      return UInt8.ofNat (s * 4 + t / 16) :: UInt8.ofNat (t % 16 * 16 + u / 4) :: UInt8.ofNat (u % 4 * 64 + v) :: bytes

def encode (data : List UInt8) : String := String.ofList (encodeBytes data)

def decode (text : String) : Option (List UInt8) :=
  decodeSymbols (text.toList.filter fun c => c ≠ '\r' ∧ c ≠ '\n')

theorem value_symbol {n : Nat} (small : n < 64) : value (symbol n) = some n := by
  have all : ∀ m : Fin 64, value (symbol m) = some m.val := by decide
  exact all ⟨n, small⟩

-- A symbol is none of the characters that a token or a line ends at.
theorem symbol_plain (n : Nat) : symbol n ≠ '.' ∧ symbol n ≠ '\r' ∧ symbol n ≠ '\n' := by
  have small : ∀ m : Fin 64, symbol m ≠ '.' ∧ symbol m ≠ '\r' ∧ symbol m ≠ '\n' := by decide
  rcases Nat.lt_or_ge n 64 with inside | outside
  · exact small ⟨n, inside⟩
  · have last : symbol n = '_' := by
      rw [symbol, if_neg (by omega), if_neg (by omega), if_neg (by omega), if_neg (by omega)]
    rw [last]
    decide

theorem encodeBytes_symbols (data : List UInt8) : ∀ c ∈ encodeBytes data, ∃ n, c = symbol n := by
  induction data using encodeBytes.induct with
  | case1 => simp [encodeBytes]
  | case2 a => simp [encodeBytes]
  | case3 a b => simp [encodeBytes]
  | case4 a b c rest ih =>
      intro character member
      simp only [encodeBytes, List.mem_cons] at member
      rcases member with rfl | rfl | rfl | rfl | later
      · exact ⟨_, rfl⟩
      · exact ⟨_, rfl⟩
      · exact ⟨_, rfl⟩
      · exact ⟨_, rfl⟩
      · exact ih character later

theorem ofNat_toNat (a : UInt8) {n : Nat} (same : n = a.toNat) : UInt8.ofNat n = a := by
  rw [same, UInt8.ofNat_toNat]

theorem decodeSymbols_encodeBytes (data : List UInt8) : decodeSymbols (encodeBytes data) = some data := by
  induction data using encodeBytes.induct with
  | case1 => rfl
  | case2 a =>
      have bound := a.toNat_lt
      rw [encodeBytes, decodeSymbols, value_symbol (by omega), value_symbol (by omega)]
      have first := ofNat_toNat a (n := a.toNat / 4 * 4 + a.toNat % 4 * 16 / 16) (by omega)
      simp only [Option.pure_def, Option.bind_eq_bind, Option.bind_some, first]
  | case3 a b =>
      have bound := a.toNat_lt
      have bound' := b.toNat_lt
      rw [encodeBytes, decodeSymbols, value_symbol (by omega), value_symbol (by omega), value_symbol (by omega)]
      have first := ofNat_toNat a (n := a.toNat / 4 * 4 + (a.toNat % 4 * 16 + b.toNat / 16) / 16) (by omega)
      have second := ofNat_toNat b
        (n := (a.toNat % 4 * 16 + b.toNat / 16) % 16 * 16 + b.toNat % 16 * 4 / 4) (by omega)
      simp only [Option.pure_def, Option.bind_eq_bind, Option.bind_some, first, second]
  | case4 a b c rest ih =>
      have bound := a.toNat_lt
      have bound' := b.toNat_lt
      have bound'' := c.toNat_lt
      rw [encodeBytes, decodeSymbols, value_symbol (by omega), value_symbol (by omega), value_symbol (by omega),
        value_symbol (by omega), ih]
      have first := ofNat_toNat a (n := a.toNat / 4 * 4 + (a.toNat % 4 * 16 + b.toNat / 16) / 16) (by omega)
      have second := ofNat_toNat b
        (n := (a.toNat % 4 * 16 + b.toNat / 16) % 16 * 16 + (b.toNat % 16 * 4 + c.toNat / 64) / 4) (by omega)
      have third := ofNat_toNat c (n := (b.toNat % 16 * 4 + c.toNat / 64) % 4 * 64 + c.toNat % 64) (by omega)
      simp only [Option.pure_def, Option.bind_eq_bind, Option.bind_some, first, second, third]

theorem decode_encode (data : List UInt8) : decode (encode data) = some data := by
  have kept : (encodeBytes data).filter (fun c => c ≠ '\r' ∧ c ≠ '\n') = encodeBytes data := by
    rw [List.filter_eq_self]
    intro c member
    obtain ⟨n, rfl⟩ := encodeBytes_symbols data c member
    simpa using (symbol_plain n).2
  rw [decode, encode, String.toList_ofList, kept, decodeSymbols_encodeBytes]

theorem encode_undotted (data : List UInt8) : '.' ∉ (encode data).toList := by
  intro member
  rw [encode, String.toList_ofList] at member
  obtain ⟨n, same⟩ := encodeBytes_symbols data '.' member
  exact (symbol_plain n).1 same.symm

end Base64URL
