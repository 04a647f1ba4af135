import Payknot.Platform
import Payknot.Program

/-! Signed agent requests: `VerifyEd25519RequestSignature` of `auth.go`. The standard
library's base64, SHA-256 and Ed25519 are parameters. -/
namespace Payknot
open GoText Interleaving

abbrev Bytes := List UInt8

structure Crypto where
  /-- `base64.StdEncoding.DecodeString`. -/
  base64Decode : String → Option Bytes
  sha256 : Bytes → Bytes
  /-- `ed25519.Verify(publicKey, message, sig)`. -/
  ed25519Verify : Bytes → Bytes → Bytes → Bool

/-- The parts of a request its signature is checked with; `body` is `none` when reading
it fails. -/
structure SignedRequest where
  method : String
  path : String
  /-- `X-Agent-Timestamp` and `X-Agent-Signature`. -/
  timestamp : String
  signature : String
  body : Option Bytes

/-- `Time.Unix`: whole seconds after 1970, which is that much later than the zero time. -/
def unix (t : Time) : Int := t / second - 62135596800

def hexDigit (n : UInt8) : Char := Char.ofNat (if n < 10 then 48 + n.toNat else 87 + n.toNat)

/-- `hex.EncodeToString`. -/
def hexEncode (data : Bytes) : String :=
  String.ofList (data.flatMap fun byte => [hexDigit (byte / 16), hexDigit (byte % 16)])

-- A hex digit stands for one value of four bits.
theorem hexDigit_injective {m n : UInt8} (below : m < 16) (below' : n < 16)
    (same : hexDigit m = hexDigit n) : m = n := by
  have digits : ∀ i j : Fin 16, hexDigit (UInt8.ofNat i) = hexDigit (UInt8.ofNat j) → i = j := by decide
  rw [UInt8.lt_iff_toNat_lt] at below below'
  have values := digits ⟨m.toNat, below⟩ ⟨n.toNat, below'⟩ (by simpa using same)
  exact UInt8.toNat_inj.mp (Fin.mk.inj values)

theorem halves_small (byte : UInt8) : byte / 16 < 16 ∧ byte % 16 < 16 := by
  rw [UInt8.lt_iff_toNat_lt, UInt8.lt_iff_toNat_lt, UInt8.toNat_div, UInt8.toNat_mod]
  have := byte.toNat_lt
  constructor
  · exact Nat.div_lt_of_lt_mul (by simpa using this)
  · exact Nat.mod_lt _ (by decide)

theorem hexEncode_injective {data data' : Bytes} (same : hexEncode data = hexEncode data') : data = data' := by
  have runes := String.ofList_injective same
  clear same
  induction data generalizing data' with
  | nil =>
      cases data' with
      | nil => rfl
      | cons byte rest => simp at runes
  | cons byte rest ih =>
      cases data' with
      | nil => simp at runes
      | cons byte' rest' =>
          simp only [List.flatMap_cons, List.cons_append, List.nil_append, List.cons.injEq] at runes
          obtain ⟨high, low, rests⟩ := runes
          have highs := congrArg UInt8.toNat
            (hexDigit_injective (halves_small byte).1 (halves_small byte').1 high)
          have lows := congrArg UInt8.toNat
            (hexDigit_injective (halves_small byte).2 (halves_small byte').2 low)
          rw [UInt8.toNat_div, UInt8.toNat_div] at highs
          rw [UInt8.toNat_mod, UInt8.toNat_mod] at lows
          have sixteen : (16 : UInt8).toNat = 16 := rfl
          rw [sixteen] at highs lows
          have bytes : byte = byte' := UInt8.toNat_inj.mp (by omega)
          rw [bytes, ih rests]

/-- What a client signs: method, path, timestamp and the body's hash. No other header. -/
def canonical (c : Crypto) (method path tsRaw : String) (body : Bytes) : Bytes :=
  ("\n".intercalate [method, path, tsRaw, hexEncode (c.sha256 body)]).toUTF8.toList

def signatureHolds (c : Crypto) (r : SignedRequest) (pub : Bytes) (ts : Int64) (now : Int) : Bool :=
  if ts.toInt < now - 300 ∨ ts.toInt > now + 60 then false
  else
    match r.body, c.base64Decode (trimSpace r.signature) with
    | some body, some sig =>
        sig.length = 64 &&
          c.ed25519Verify pub (canonical c r.method r.path (trimSpace r.timestamp) body) sig
    | _, _ => false

variable {Op : Type} {Reply : Op → Type}

/-- `clock` is the caller's way to read the time. -/
def verifyEd25519RequestSignature (c : Crypto) (clock : Program Reply Time) (r : SignedRequest)
    (pub : Bytes) : Program Reply Bool := do
  let tsRaw := trimSpace r.timestamp
  let sigRaw := trimSpace r.signature
  if tsRaw = "" ∨ sigRaw = "" then return false
  match parseInt tsRaw with
  | .error _ => return false
  | .ok ts =>
      let now ← clock
      return signatureHolds c r pub ts (unix now)

/-- An accepted signature was checked against a clock reading; nothing else is read. -/
theorem along_verifyEd25519RequestSignature {c : Crypto} {clock : Program Reply Time} {r : SignedRequest}
    {pub : Bytes} {issue : Log Reply → Op → Prop} {log : Log Reply} {seen : Log Reply → Prop}
    {read : Log Reply → Time → Prop}
    (reads : clock.Along issue (fun after now => seen after ∧ read after now) log) (start : seen log) :
    (verifyEd25519RequestSignature c clock r pub).Along issue
      (fun after accepted => seen after ∧ (accepted = true → ∃ ts now, read after now ∧
        parseInt (trimSpace r.timestamp) = .ok ts ∧ signatureHolds c r pub ts (unix now) = true)) log := by
  simp only [verifyEd25519RequestSignature]
  split
  · rw [Program.along_pure]
    exact ⟨start, by simp⟩
  · split
    · rw [Program.along_pure]
      exact ⟨start, by simp⟩
    · next ts parsed =>
      refine reads.sequence fun after now _ ⟨saw, at_now⟩ => ?_
      rw [Program.along_pure]
      exact ⟨saw, fun holds => ⟨ts, now, at_now, parsed, holds⟩⟩

-- A request whose signature holds carries a timestamp inside the window.
theorem signatureHolds_window {c : Crypto} {r : SignedRequest} {pub : Bytes} {ts : Int64} {now : Int}
    (holds : signatureHolds c r pub ts now = true) : now - 300 ≤ ts.toInt ∧ ts.toInt ≤ now + 60 := by
  unfold signatureHolds at holds
  split at holds
  · cases holds
  · omega

end Payknot
