import Payknot.AgentRuntime
import Payknot.Hosts
import Payknot.Mainnet

/-! One agent to run the agent endpoints on: its key, a nonce it signs, a session token
and a settlement request. Base 58 and base64 are decoded as the packages do; hashes,
signatures and JSON documents are those of these few texts. -/
namespace Payknot.AgentRuntime.Agents
open GoText Interleaving Machine

/-- The `size` low bytes, most significant first. -/
def bytesOf : Nat → Nat → Bytes
  | 0, _ => []
  | size + 1, value => bytesOf size (value / 256) ++ [UInt8.ofNat value]

def base58Decode (text : String) : Option Bytes :=
  (Mainnet.readDigits text.toList 0).map fun value =>
    List.replicate (text.toList.takeWhile (· = '1')).length 0 ++ bytesOf (Mainnet.byteLength value) value

def urlSymbol (n : Nat) : Char :=
  if n < 26 then Char.ofNat (n + 65)
  else if n < 52 then Char.ofNat (n + 71)
  else if n < 62 then Char.ofNat (n - 4)
  else if n = 62 then '-' else '_'

def urlEncode : Bytes → List Char
  | [] => []
  | [a] => [urlSymbol (a.toNat / 4), urlSymbol (a.toNat % 4 * 16)]
  | [a, b] => [urlSymbol (a.toNat / 4), urlSymbol (a.toNat % 4 * 16 + b.toNat / 16),
      urlSymbol (b.toNat % 16 * 4)]
  | a :: b :: c :: rest =>
      urlSymbol (a.toNat / 4) :: urlSymbol (a.toNat % 4 * 16 + b.toNat / 16) ::
        urlSymbol (b.toNat % 16 * 4 + c.toNat / 64) :: urlSymbol (c.toNat % 64) :: urlEncode rest

def agentPubkey : String := "GyGKxMyg1p9SsHfm15MkNUu1u9TN2JtTspcdmrtGUdse"

def loginNonce : String := "k3J8sQ2xZ9vB4nM7tR1wY6uE5pL0aHcD"

/-- The agent's signature of `loginNonce`. -/
def loginSig : String :=
  "qAa5vkVppSXkr6y6Ssc63n133o3mdXynM8pTpDGUuMQii4yHoGzEdfnAaVN6s9LZo91NnfGV4FKGPPvBEFs4CXL"

def checkoutBody : String :=
  "\x7b\"event_id\":1,\"recipient\":\"11111111111111111111111111111111\",\"amount_usdc\":1,\"memo\":\"m\"\x7d"

/-- What the agent signs of a settlement request, and its signature. -/
def checkoutMessage : String :=
  "POST\n/api/agent/checkout/create\n1754000060\n" ++
    "da2b469767a39f8e310c2b9851a5b0aa8747885755c202c313bd4bc04046febe"

def checkoutSignature : String :=
  "d5w6eVGmF2CnfmEjOYkMFSlRWpYpLgwKcS/pGehpA8RMai7V1puTG+CynrorciLt6ZpX/oVPPDBNfACq0LqSAw=="

/-- SHA-256 of `checkoutBody`. -/
def bodyHash : Bytes :=
  [218, 43, 70, 151, 103, 163, 159, 142, 49, 12, 43, 152, 81, 165, 176, 170, 135, 71, 136, 87, 85, 194,
    2, 195, 19, 189, 75, 192, 64, 70, 254, 190]

def sessionClaims : AgentClaims :=
  ⟨agentPubkey, "6f1c2a34-9d5e-4b7f-8a01-1c2d3e4f5a6b", 1754000000, 1754086400, "agent:settlement"⟩

def marshalClaims (claims : AgentClaims) : Bytes :=
  ("\x7b\"sub\":\"" ++ claims.agentPubkey ++ "\",\"jti\":\"" ++ claims.jti ++ "\",\"iat\":" ++
    toString claims.issuedAt ++ ",\"exp\":" ++ toString claims.expiresAt ++ ",\"scope\":\"" ++
    claims.scope ++ "\"\x7d").toUTF8.toList

/-- HMAC-SHA-256 of the unsigned session token under "secret". -/
def sessionMac : Bytes :=
  [44, 198, 189, 2, 114, 51, 203, 143, 177, 247, 70, 188, 0, 34, 113, 220, 88, 69, 170, 122, 88, 179, 83,
    23, 70, 170, 98, 208, 12, 232, 186, 235]

def jwtHeader : Bytes := "\x7b\"alg\":\"HS256\",\"typ\":\"JWT\"\x7d".toUTF8.toList

def rawURLEncode (data : Bytes) : String := String.ofList (urlEncode data)

def unsignedToken : String := rawURLEncode jwtHeader ++ "." ++ rawURLEncode (marshalClaims sessionClaims)

def environment : Environment where
  base64Decode := AgentKeys.Hosts.base64Decode
  sha256 := fun data => if data = checkoutBody.toUTF8.toList then bodyHash else []
  ed25519Verify := fun pub message sig => base58Decode agentPubkey = some pub &&
    (message = loginNonce.toUTF8.toList && base58Decode loginSig = some sig ||
      message = checkoutMessage.toUTF8.toList &&
        AgentKeys.Hosts.base64Decode checkoutSignature = some sig)
  base58Decode := base58Decode
  publicKeyFromBase58 := fun text => (base58Decode text).any (·.length = 32)
  agentJWTSecretVar := "secret"
  authJWTSecretVar := ""
  settlementMockSuccess := "true"
  hmacSHA256 := fun _ message => if message = unsignedToken.toUTF8.toList then sessionMac else []
  rawURLEncode := rawURLEncode
  rawURLDecode := fun text =>
    if text = rawURLEncode (marshalClaims sessionClaims) then some (marshalClaims sessionClaims)
    else if text = rawURLEncode sessionMac then some sessionMac
    else none
  jwtHeader := jwtHeader
  marshalClaims := marshalClaims
  unmarshalClaims := fun data => if data = marshalClaims sessionClaims then some sessionClaims else none
  decodeCheckout := fun data =>
    if data = checkoutBody.toUTF8.toList then some ⟨1, "11111111111111111111111111111111", 1, "m"⟩ else none

def login : Request := .authToken "POST" (some ⟨agentPubkey, loginNonce, loginSig⟩)

def random (text : String) (index : Nat) : ServiceLabel := .step index ⟨none, some text⟩

def steps (index count : Nat) : List ServiceLabel := List.replicate count (.step index ⟨none, none⟩)

def opening : Service :=
  { world :=
      { nonces := [], sessions := [], policies := [⟨500, 10, none, none, true⟩], intents := []
        now := 63889596800 * second, minted := [] }
    threads := [] }

end Payknot.AgentRuntime.Agents
