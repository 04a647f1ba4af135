import Payknot.Mainnet
import Mathlib.Data.Nat.Digits.Lemmas

/-! Base 58 text of a fixed number of bytes is read back as what was written, and no other
text is read as the same bytes. -/
namespace Payknot
open GoText

/-- What the service relies on in the Solana library's text: an address or signature is
read back, no other text is read as the same address, and the empty text is none. -/
structure Base58 (p : Platform) : Prop where
  reads : ∀ key, p.publicKeyFromBase58 (p.publicKeyString key) = some key
  writes : ∀ text key, p.publicKeyFromBase58 text = some key → p.publicKeyString key = text
  empty : p.publicKeyFromBase58 "" = none
  readsSignature : ∀ signature, p.signatureFromBase58 (p.signatureString signature) = .ok signature

theorem Base58.publicKeyString_ne {p : Platform} (base58 : Base58 p) (key : PublicKey) :
    p.publicKeyString key ≠ "" := by
  intro blank
  have read := base58.reads key
  rw [blank, base58.empty] at read
  cases read

namespace Mainnet

section Digits

theorem digit_symbol {d : Nat} (small : d < 58) : digit (symbol d) = some d := by
  revert d
  decide

theorem symbol_digit {c : Char} {d : Nat} (read : digit c = some d) : d < 58 ∧ symbol d = c := by
  have rune : Char.ofNat c.toNat = c := Char.ofNat_toNat c
  have at_least (low : Char) : low ≤ c ↔ low.toNat ≤ c.toNat := Iff.rfl
  have at_most (high : Char) : c ≤ high ↔ c.toNat ≤ high.toNat := Iff.rfl
  unfold digit at read
  simp only [at_least, at_most, Char.reduceToNat] at read
  generalize c.toNat = n at read rune
  subst rune
  unfold symbol
  repeat' split at read
  all_goals cases read
  all_goals refine ⟨by omega, ?_⟩
  all_goals repeat' split
  all_goals first
    | omega
    | congr 1
      omega

theorem readDigits_append (front back : List Char) (value : Nat) :
    readDigits (front ++ back) value = (readDigits front value).bind (readDigits back) := by
  induction front generalizing value with
  | nil => rfl
  | cons c rest ih =>
      rw [List.cons_append, readDigits, readDigits]
      cases digit c with
      | none => rfl
      | some d => exact ih _

theorem readDigits_symbols {digits : List Nat} (small : ∀ d ∈ digits, d < 58) :
    readDigits (digits.map symbol).reverse 0 = some (Nat.ofDigits 58 digits) := by
  induction digits with
  | nil => rfl
  | cons d rest ih =>
      rw [List.map_cons, List.reverse_cons, readDigits_append,
        ih fun later among => small later (List.mem_cons_of_mem _ among), Option.bind_some, readDigits,
        digit_symbol (small d List.mem_cons_self), Nat.ofDigits_cons]
      change some (Nat.ofDigits 58 rest * 58 + d) = _
      congr 1
      omega

theorem readDigits_inverse {text : List Char} {value : Nat} (read : readDigits text 0 = some value) :
    ∃ digits : List Nat, (∀ d ∈ digits, d < 58) ∧ text = (digits.map symbol).reverse ∧
      value = Nat.ofDigits 58 digits := by
  induction text using List.reverseRecOn generalizing value with
  | nil =>
      cases read
      exact ⟨[], by simp, rfl, rfl⟩
  | append_singleton front c ih =>
      rw [readDigits_append] at read
      obtain ⟨high, read_front, read_last⟩ := Option.bind_eq_some_iff.mp read
      rw [readDigits] at read_last
      cases digit_c : digit c with
      | none => simp [digit_c] at read_last
      | some d =>
          obtain ⟨digits, small, rfl, rfl⟩ := ih read_front
          obtain ⟨small_d, rfl⟩ := symbol_digit digit_c
          rw [digit_c] at read_last
          cases read_last
          refine ⟨d :: digits, ?_, by simp, ?_⟩
          · rintro other (_ | ⟨_, among⟩)
            · exact small_d
            · exact small other among
          · rw [Nat.ofDigits_cons]
            omega

theorem writeDigits_eq {fuel value : Nat} (enough : value < 58 ^ fuel) (text : List Char) :
    writeDigits fuel value text = ((Nat.digits 58 value).map symbol).reverse ++ text := by
  induction fuel generalizing value text with
  | zero =>
      obtain rfl : value = 0 := by simpa using enough
      simp [writeDigits]
  | succ fuel ih =>
      rw [writeDigits]
      by_cases zero : value = 0
      · simp [zero]
      · have smaller : value / 58 < 58 ^ fuel := by
          rw [Nat.div_lt_iff_lt_mul (by decide)]
          rw [pow_succ] at enough
          exact enough
        rw [if_neg zero, ih smaller, Nat.digits_def' (by decide) (Nat.pos_of_ne_zero zero)]
        simp

end Digits

section Bytes

theorem byteLength_le {value size : Nat} : byteLength value ≤ size ↔ value < 2 ^ (8 * size) := by
  unfold byteLength
  by_cases zero : value = 0
  · simp [zero]
  · rw [if_neg zero, ← Nat.log2_lt zero]
    omega

theorem takeWhile_ones {count : Nat} {rest : List Char} (other : rest.head? ≠ some '1') :
    (List.replicate count '1' ++ rest).takeWhile (· = '1') = List.replicate count '1' := by
  induction count with
  | zero =>
      cases rest with
      | nil => rfl
      | cons c rest =>
          have different : c ≠ '1' := fun same => other (by rw [same]; rfl)
          simp [different]
  | succ count ih => simp [List.replicate_succ, ih]

theorem readDigits_ones (count : Nat) (rest : List Char) :
    readDigits (List.replicate count '1' ++ rest) 0 = readDigits rest 0 := by
  induction count with
  | zero => rfl
  | succ count ih =>
      rw [List.replicate_succ, List.cons_append, readDigits]
      exact ih

theorem symbol_one {d : Nat} (small : d < 58) (one : symbol d = '1') : d = 0 := by
  have read := digit_symbol small
  rw [one] at read
  exact (Option.some.inj read).symm

-- The text of a number does not start with a zero.
theorem symbols_head (value : Nat) : ((Nat.digits 58 value).map symbol).reverse.head? ≠ some '1' := by
  rw [List.head?_reverse, List.getLast?_map]
  intro one
  obtain ⟨d, last, one⟩ := Option.map_eq_some_iff.mp one
  have some_digits : Nat.digits 58 value ≠ [] := by
    intro none
    rw [none] at last
    cases last
  have same := List.getLast?_eq_some_getLast some_digits
  rw [last] at same
  cases same
  have small := Nat.digits_lt_base (by decide) (List.getLast_mem some_digits)
  have positive : value ≠ 0 := by
    rintro rfl
    exact some_digits (Nat.digits_zero _)
  exact Nat.getLast_digit_ne_zero 58 positive (symbol_one small one)

variable {size : Nat}

theorem decode_encode (bits : BitVec (8 * size)) : decode size (encode size bits) = some bits := by
  have fits : bits.toNat < 58 ^ (2 * size) := by
    refine lt_of_lt_of_le bits.isLt ?_
    rw [pow_mul, pow_mul]
    exact Nat.pow_le_pow_left (by decide) size
  have short := byteLength_le.mpr bits.isLt
  unfold encode decode
  rw [String.toList_ofList, writeDigits_eq fits, List.append_nil, readDigits_ones,
    readDigits_symbols fun d among => Nat.digits_lt_base (by decide) among, Nat.ofDigits_digits,
    takeWhile_ones (symbols_head _)]
  dsimp only
  rw [List.length_replicate, Nat.sub_add_cancel short, if_pos rfl, BitVec.ofNat_toNat, BitVec.setWidth_eq]

theorem encode_decode {text : String} {bits : BitVec (8 * size)} (read : decode size text = some bits) :
    encode size bits = text := by
  unfold decode at read
  cases value_of : readDigits text.toList 0 with
  | none => simp [value_of] at read
  | some value =>
      rw [value_of] at read
      simp only [Option.ite_none_right_eq_some, Option.some.injEq] at read
      obtain ⟨exact_size, rfl⟩ := read
      -- The text is its leading ones and the digits of the number.
      have ones : text.toList.takeWhile (· = '1') =
          List.replicate (text.toList.takeWhile (· = '1')).length '1' := by
        rw [List.eq_replicate_iff]
        exact ⟨rfl, fun c among => by simpa using List.mem_takeWhile_imp among⟩
      have split := List.takeWhile_append_dropWhile (p := (· = '1')) (l := text.toList)
      have read_rest := value_of
      rw [← split, ones, readDigits_ones] at read_rest
      obtain ⟨digits, small, rest, rfl⟩ := readDigits_inverse read_rest
      have no_zero : ∀ some_digits : digits ≠ [], digits.getLast some_digits ≠ 0 := by
        intro some_digits zero
        have front : (text.toList.dropWhile (· = '1')).head? = some '1' := by
          rw [rest, List.head?_reverse, List.getLast?_map, List.getLast?_eq_some_getLast some_digits, zero]
          rfl
        have stops := List.head?_dropWhile_not (· = '1') text.toList
        rw [front] at stops
        simp at stops
      have fits : Nat.ofDigits 58 digits < 2 ^ (8 * size) := byteLength_le.mp (by omega)
      have wide : Nat.ofDigits 58 digits < 58 ^ (2 * size) := by
        refine lt_of_lt_of_le fits ?_
        rw [pow_mul, pow_mul]
        exact Nat.pow_le_pow_left (by decide) size
      unfold encode
      rw [BitVec.toNat_ofNat, Nat.mod_eq_of_lt fits, writeDigits_eq wide, List.append_nil,
        Nat.digits_ofDigits 58 (by decide) digits small no_zero, ← rest, Nat.sub_eq_of_eq_add exact_size.symm,
        ← ones, split, String.ofList_toList]

end Bytes

theorem base58 : Base58 platform where
  reads key := @decode_encode 32 key
  writes _ _ := @encode_decode 32 _ _
  empty := by decide
  readsSignature signature := by
    have decoded := @decode_encode 64 signature
    simp only [platform, decoded]

end Mainnet

end Payknot
