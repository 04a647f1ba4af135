import Payknot.KeyHistory

/-! Two hosts and their agents' keys, to run the key endpoints on. Base64 is decoded as
the Go package does; SHA-256 and Ed25519 are known at the one request that is signed
here. -/
namespace Payknot.AgentKeys.Hosts
open GoText Interleaving Machine

def sextet (c : Char) : Option Nat :=
  let n := c.toNat
  if 'A' ≤ c ∧ c ≤ 'Z' then some (n - 65)
  else if 'a' ≤ c ∧ c ≤ 'z' then some (n - 71)
  else if '0' ≤ c ∧ c ≤ '9' then some (n + 4)
  else if c = '+' then some 62
  else if c = '/' then some 63
  else none

def decodeQuads : List Char → Option Bytes
  | [] => some []
  | [a, b, '=', '='] => do
      let bits := (← sextet a) * 64 + (← sextet b)
      return [UInt8.ofNat (bits / 16)]
  | [a, b, c, '='] => do
      let bits := ((← sextet a) * 64 + (← sextet b)) * 64 + (← sextet c)
      return [UInt8.ofNat (bits / 1024), UInt8.ofNat (bits / 4)]
  | a :: b :: c :: d :: rest => do
      let bits := (((← sextet a) * 64 + (← sextet b)) * 64 + (← sextet c)) * 64 + (← sextet d)
      return UInt8.ofNat (bits / 65536) :: UInt8.ofNat (bits / 256) :: UInt8.ofNat bits ::
        (← decodeQuads rest)
  | _ => none

def base64Decode (text : String) : Option Bytes :=
  decodeQuads (text.toList.filter fun c => c ≠ '\n' ∧ c ≠ '\r')

def aliceKey : String := "iojj3XQJ8ZX9UtstPLpdcspnCb8dlBIb83SIAbQPb1w="
def bobKey : String := "gTl3Dqh9F19Wo1Rmw0x+zMuNipG07jeiXfYPW4/Js5Q="
def bobSignature : String :=
  "POYDnSIpGqWTE0at5nhTsX0qBvprSjw6XhKXXzdQpN4XKK4W6klGLVt9cKsVGIyd8olN8HEAzra6b2RT9OVfBA=="

/-- What `bobSignature` signs. -/
def bobMessage : String :=
  "GET\n/api/events\n1754000000\ne3b0c44298fc1c149afbf4c8996fb92427ae41e4649b934ca495991b7852b855"

def emptyHash : Bytes :=
  [227, 176, 196, 66, 152, 252, 28, 20, 154, 251, 244, 200, 153, 111, 185, 36, 39, 174, 65, 228,
    100, 155, 147, 76, 164, 149, 153, 27, 120, 82, 184, 85]

/-- `AGENT_PUBLIC_KEYS_JSON` with one agent. -/
def oneAgent (agentID : String) : String := "\x7b\"" ++ agentID ++ "\":\"" ++ aliceKey ++ "\"\x7d"

def environment (keysJSON : String) : Environment where
  base64Decode := base64Decode
  sha256 := fun data => if data = [] then emptyHash else []
  ed25519Verify := fun pub message sig => base64Decode bobKey = some pub &&
    (base64Decode bobSignature = some sig && message = bobMessage.toUTF8.toList)
  agentPublicKeysJSON := keysJSON
  agentKeyCacheTTLSeconds := ""
  unmarshalStrings := fun text =>
    if text = oneAgent "agent-a" then some [("agent-a", aliceKey)]
    else if text = oneAgent "agent-b" then some [("agent-b", aliceKey)]
    else none

def alice : AuthClaims := ⟨"alice@example.com"⟩
def bob : AuthClaims := ⟨"bob@example.com"⟩

def register (host : AuthClaims) (agentID key : String) : Request := .upsert (some host) (some ⟨agentID, key⟩)
def revoke (host : AuthClaims) (agentID : String) : Request := .revoke (some host) ⟨.post, some ⟨agentID⟩⟩

def signedByBob (agentID : String) : Request :=
  .verify agentID ⟨"GET", "/api/events", "1754000000", bobSignature, some []⟩

def sound : Choice := ⟨none, none⟩

def steps (index count : Nat) : List ServiceLabel := List.replicate count (.step index sound)

/-- An empty table, an empty cache, a second after the signed request was made. -/
def opening : Service :=
  { world := { rows := [], cache := ⟨none, 0⟩, now := 63889596801 * second }, threads := [] }

theorem opening_fresh : Fresh opening := ⟨rfl, ⟨by simp [opening], by simp [opening]⟩⟩

end Payknot.AgentKeys.Hosts
