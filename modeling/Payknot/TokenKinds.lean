import Payknot.Base64URL
import Payknot.EmailedTokens
import Payknot.Embedding

/-! The two kinds of signed tokens. A user's and an agent's token have the same header and,
when no separate secret is set, the same key; only the JSON types of their members tell
them apart. -/
namespace Payknot.TokenKinds
open GoText Interleaving

section Text

abbrev GoString := List UInt8

def utf8 (text : String) : GoString := text.toList.flatMap String.utf8EncodeChar

/-- The runes of a range loop; a byte that begins no character is read as U+FFFD. -/
def runes : Nat → GoString → List Char
  | 0, _ | _ + 1, [] => []
  | fuel + 1, first :: rest =>
      match (first :: rest).toByteArray.utf8DecodeChar? 0 with
      | some c => c :: runes fuel ((first :: rest).drop c.utf8Size)
      | none => '\ufffd' :: runes fuel rest

/-- How `json.Marshal` coerces a string to valid UTF-8. -/
def toValidUTF8 (bytes : GoString) : String := String.ofList (runes bytes.length bytes)

def ValidUTF8 (bytes : GoString) : Prop := ∃ text, utf8 text = bytes

theorem utf8EncodeChar_length (c : Char) : (String.utf8EncodeChar c).length = c.utf8Size :=
  String.length_utf8EncodeChar c

theorem runes_encoded (text : List Char) {fuel : Nat} (enough : text.length ≤ fuel) :
    runes fuel (text.flatMap String.utf8EncodeChar) = text := by
  induction text generalizing fuel with
  | nil => cases fuel <;> rfl
  | cons c rest ih =>
      cases fuel with
      | zero => simp at enough
      | succ fuel =>
          have shorter : rest.length ≤ fuel := by simpa using enough
          have size := utf8EncodeChar_length c
          have decodes : ((c :: rest).flatMap String.utf8EncodeChar).toByteArray.utf8DecodeChar? 0 = some c := by
            rw [List.flatMap_cons, List.toByteArray_append]
            exact ByteArray.utf8DecodeChar?_utf8EncodeChar_append
          have dropped : ((c :: rest).flatMap String.utf8EncodeChar).drop c.utf8Size =
              rest.flatMap String.utf8EncodeChar := by
            rw [List.flatMap_cons, List.drop_append_of_le_length (by omega), ← size, List.drop_length,
              List.nil_append]
          generalize encoded : (c :: rest).flatMap String.utf8EncodeChar = bytes at decodes dropped ⊢
          cases bytes with
          | nil =>
              have longer := congrArg List.length encoded
              have positive := c.utf8Size_pos
              simp only [List.flatMap_cons, List.length_append, List.length_nil, size] at longer
              omega
          | cons first others =>
              rw [runes, decodes]
              dsimp only
              rw [dropped, ih shorter]

theorem length_utf8 (text : String) : text.toList.length ≤ (utf8 text).length := by
  unfold utf8
  induction text.toList with
  | nil => exact Nat.le_refl _
  | cons c rest ih =>
      have positive := c.utf8Size_pos
      rw [List.flatMap_cons, List.length_append, utf8EncodeChar_length, List.length_cons]
      omega

theorem toValidUTF8_utf8 (text : String) : toValidUTF8 (utf8 text) = text := by
  have decoded : runes (utf8 text).length (utf8 text) = text.toList := runes_encoded _ (length_utf8 text)
  rw [toValidUTF8, decoded, String.ofList_toList]

theorem toValidUTF8_nonempty {bytes : GoString} (nonempty : bytes ≠ []) : toValidUTF8 bytes ≠ "" := by
  cases bytes with
  | nil => exact absurd rfl nonempty
  | cons first rest =>
      intro empty
      have none_left := congrArg String.toList empty
      rw [toValidUTF8, String.toList_ofList, List.length_cons, runes] at none_left
      split at none_left <;> cases none_left

-- A string survives the coercion exactly when it is valid.
theorem utf8_toValidUTF8 {bytes : GoString} : utf8 (toValidUTF8 bytes) = bytes ↔ ValidUTF8 bytes := by
  constructor
  · intro same
    exact ⟨_, same⟩
  · rintro ⟨text, rfl⟩
    rw [toValidUTF8_utf8]

end Text

section Claims

/-- `AuthClaims` and `AgentClaims` as Go has them. -/
structure AuthClaims where
  userID : Int64
  email : GoString
  sessionID : GoString
  issuedAt : Int64
  expiresAt : Int64

structure AgentClaims where
  agentPubkey : GoString
  jti : GoString
  issuedAt : Int64
  expiresAt : Int64
  scope : GoString

def AuthClaims.Is (c : AuthClaims) (claims : Accounts.UserClaims) : Prop :=
  claims.userID = c.userID ∧ utf8 claims.email = c.email ∧ utf8 claims.sessionID = c.sessionID ∧
    claims.issuedAt = c.issuedAt.toInt ∧ claims.expiresAt = c.expiresAt.toInt

def AgentClaims.Is (c : AgentClaims) (claims : AgentRuntime.AgentClaims) : Prop :=
  utf8 claims.agentPubkey = c.agentPubkey ∧ utf8 claims.jti = c.jti ∧ claims.issuedAt = c.issuedAt.toInt ∧
    claims.expiresAt = c.expiresAt.toInt ∧ utf8 claims.scope = c.scope

inductive Literal where
  | text (value : GoString)
  | integer (value : Int)
  deriving DecidableEq

/-- A member's value as a document is read: `other` is everything that fits neither a
string nor an integer. -/
inductive Value where
  | null
  | text (value : String)
  | integer (value : Int)
  | other

def Literal.read : Literal → Value
  | .text value => .text (toValidUTF8 value)
  | .integer value => .integer value

def readBack (written : List (String × Literal)) : List (String × Value) :=
  written.map fun (key, value) => (key, value.read)

def AuthClaims.members (c : AuthClaims) : List (String × Literal) :=
  [("sub", .integer c.userID.toInt), ("email", .text c.email), ("sid", .text c.sessionID),
    ("iat", .integer c.issuedAt.toInt), ("exp", .integer c.expiresAt.toInt)]

def AgentClaims.members (c : AgentClaims) : List (String × Literal) :=
  [("sub", .text c.agentPubkey), ("jti", .text c.jti), ("iat", .integer c.issuedAt.toInt),
    ("exp", .integer c.expiresAt.toInt), ("scope", .text c.scope)]

/-- `map[string]string` with the two members of every token's header, its keys sorted. -/
def headerMembers : List (String × Literal) := [("alg", .text (utf8 "HS256")), ("typ", .text (utf8 "JWT"))]

/-- A rune of a key and the ASCII letters that `json.Unmarshal` takes for it. -/
def foldRune (c : Char) : Char :=
  if c = '\u017f' then 's' else if c = '\u212a' then 'k' else c.toLower

def named (key name : String) : Bool := key.toList.map foldRune = name.toList

/-- A value read into a string, and into an `int64`; null changes nothing. -/
def readText (old : String) : Value → Option String
  | .text value => some value
  | .null => some old
  | _ => none

def readInt64 (old : Int) : Value → Option Int
  | .integer value => if -2 ^ 63 ≤ value ∧ value < 2 ^ 63 then some value else none
  | .null => some old
  | _ => none

/-- One member of a document read into `AuthClaims`; members of other names are skipped. -/
def readAuthMember (claims : Accounts.UserClaims) (member : String × Value) : Option Accounts.UserClaims :=
  let (key, value) := member
  if named key "sub" then
    (readInt64 claims.userID.toInt value).map fun n => { claims with userID := Int64.ofInt n }
  else if named key "email" then (readText claims.email value).map fun text => { claims with email := text }
  else if named key "sid" then (readText claims.sessionID value).map fun text => { claims with sessionID := text }
  else if named key "iat" then (readInt64 claims.issuedAt value).map fun n => { claims with issuedAt := n }
  else if named key "exp" then (readInt64 claims.expiresAt value).map fun n => { claims with expiresAt := n }
  else some claims

def readAgentMember (claims : AgentRuntime.AgentClaims) (member : String × Value) :
    Option AgentRuntime.AgentClaims :=
  let (key, value) := member
  if named key "sub" then (readText claims.agentPubkey value).map fun text => { claims with agentPubkey := text }
  else if named key "jti" then (readText claims.jti value).map fun text => { claims with jti := text }
  else if named key "iat" then (readInt64 claims.issuedAt value).map fun n => { claims with issuedAt := n }
  else if named key "exp" then (readInt64 claims.expiresAt value).map fun n => { claims with expiresAt := n }
  else if named key "scope" then (readText claims.scope value).map fun text => { claims with scope := text }
  else some claims

/-- A document read into a struct; a member of the wrong type is an error. -/
def readAuthClaims (members : List (String × Value)) : Option Accounts.UserClaims :=
  members.foldlM readAuthMember ⟨0, "", "", 0, 0⟩

def readAgentClaims (members : List (String × Value)) : Option AgentRuntime.AgentClaims :=
  members.foldlM readAgentMember ⟨"", "", 0, 0, ""⟩

/-- A document read into `map[string]string`, and what it has under `alg`. -/
def readAlg (members : List (String × Value)) : Option String :=
  members.foldlM (fun alg (key, value) => (readText "" value).map fun text => if key = "alg" then text else alg) ""

end Claims

section Runtime

/-- What signing and reading tokens rests on: the two secrets, HMAC-SHA-256, `json.Marshal`
of a struct or map with these members, and the members of a JSON object (of the document
`null`, none). -/
structure Runtime where
  authJWTSecretVar : String
  agentJWTSecretVar : String
  hmacSHA256 : Bytes → Bytes → Bytes
  marshal : List (String × Literal) → Bytes
  members : Bytes → Option (List (String × Value))

variable (r : Runtime)

/-- `json.Unmarshal` reads the members that `json.Marshal` has written. -/
def Runtime.Reads (written : List (String × Literal)) : Prop :=
  r.members (r.marshal written) = some (readBack written)

def Runtime.sign (secret : String) (claims : List (String × Literal)) : Option String :=
  if secret = "" then none
  else
    let unsigned := Base64URL.encode (r.marshal headerMembers) ++ "." ++ Base64URL.encode (r.marshal claims)
    some (unsigned ++ "." ++ Base64URL.encode (r.hmacSHA256 secret.toUTF8.toList unsigned.toUTF8.toList))

def Runtime.signJWT (c : AuthClaims) : Option String := r.sign (trimSpace r.authJWTSecretVar) c.members

def Runtime.agentJWTSecret : String :=
  let v := trimSpace r.agentJWTSecretVar
  if v ≠ "" then v else trimSpace r.authJWTSecretVar

def Runtime.signAgentJWT (c : AgentClaims) : Option String := r.sign r.agentJWTSecret c.members

def ofUser (claims : Accounts.UserClaims) : AuthClaims :=
  ⟨claims.userID, utf8 claims.email, utf8 claims.sessionID, Int64.ofInt claims.issuedAt,
    Int64.ofInt claims.expiresAt⟩

def ofAgent (claims : AgentRuntime.AgentClaims) : AgentClaims :=
  ⟨utf8 claims.agentPubkey, utf8 claims.jti, Int64.ofInt claims.issuedAt, Int64.ofInt claims.expiresAt,
    utf8 claims.scope⟩

def Runtime.accounts (e : Accounts.Environment) : Accounts.Environment :=
  { e with
    authJWTSecretVar := r.authJWTSecretVar
    hmacSHA256 := r.hmacSHA256
    rawURLEncode := Base64URL.encode
    rawURLDecode := Base64URL.decode
    jwtHeader := r.marshal headerMembers
    unmarshalAlg := fun data => (r.members data).bind readAlg
    marshalClaims := fun claims => r.marshal (ofUser claims).members
    unmarshalClaims := fun data => (r.members data).bind readAuthClaims }

def Runtime.agents (e : AgentRuntime.Environment) : AgentRuntime.Environment :=
  { e with
    agentJWTSecretVar := r.agentJWTSecretVar
    authJWTSecretVar := r.authJWTSecretVar
    hmacSHA256 := r.hmacSHA256
    rawURLEncode := Base64URL.encode
    rawURLDecode := Base64URL.decode
    jwtHeader := r.marshal headerMembers
    marshalClaims := fun claims => r.marshal (ofAgent claims).members
    unmarshalClaims := fun data => (r.members data).bind readAgentClaims }

variable {r} {e : Accounts.Environment} {e' : AgentRuntime.Environment}

theorem signJWT_ofUser (claims : Accounts.UserClaims) :
    Accounts.signJWT (r.accounts e) claims = r.signJWT (ofUser claims) := rfl

theorem signAgentJWT_ofAgent (claims : AgentRuntime.AgentClaims) :
    AgentRuntime.signAgentJWT (r.agents e') claims = r.signAgentJWT (ofAgent claims) := rfl

-- The parts of a signed token, and what they decode to.
theorem sign_parts {secret token : String} {claims : List (String × Literal)} (signed : r.sign secret claims = some token) :
    ∃ header payload signature, secret ≠ "" ∧ split token '.' = [header, payload, signature] ∧
      Base64URL.decode header = some (r.marshal headerMembers) ∧ Base64URL.decode payload = some (r.marshal claims) ∧
      Base64URL.decode signature =
        some (r.hmacSHA256 secret.toUTF8.toList (header ++ "." ++ payload).toUTF8.toList) := by
  unfold Runtime.sign at signed
  split at signed
  · cases signed
  · next given =>
    cases signed
    exact ⟨_, _, _, given, split_dotted (Base64URL.encode_undotted _) (Base64URL.encode_undotted _)
      (Base64URL.encode_undotted _), Base64URL.decode_encode _, Base64URL.decode_encode _, Base64URL.decode_encode _⟩

theorem readInt64_toInt (old : Int) (n : Int64) : readInt64 old (.integer n.toInt) = some n.toInt :=
  if_pos ⟨n.le_toInt, n.toInt_lt⟩

/-- What is read back of a user's claims: themselves, their texts coerced. -/
def AuthClaims.coerced (c : AuthClaims) : Accounts.UserClaims :=
  ⟨c.userID, toValidUTF8 c.email, toValidUTF8 c.sessionID, c.issuedAt.toInt, c.expiresAt.toInt⟩

def AgentClaims.coerced (c : AgentClaims) : AgentRuntime.AgentClaims :=
  ⟨toValidUTF8 c.agentPubkey, toValidUTF8 c.jti, c.issuedAt.toInt, c.expiresAt.toInt, toValidUTF8 c.scope⟩

theorem readAuthClaims_members (c : AuthClaims) : readAuthClaims (readBack c.members) = some c.coerced := by
  have sub (claims : Accounts.UserClaims) (n : Int64) :
      readAuthMember claims ("sub", .integer n.toInt) = some { claims with userID := n } := by
    change (readInt64 _ _).map _ = _
    rw [readInt64_toInt, Option.map_some, Int64.ofInt_toInt]
  have email (claims : Accounts.UserClaims) (text : String) :
      readAuthMember claims ("email", .text text) = some { claims with email := text } := rfl
  have sid (claims : Accounts.UserClaims) (text : String) :
      readAuthMember claims ("sid", .text text) = some { claims with sessionID := text } := rfl
  have iat (claims : Accounts.UserClaims) (n : Int64) :
      readAuthMember claims ("iat", .integer n.toInt) = some { claims with issuedAt := n.toInt } := by
    change (readInt64 _ _).map _ = _
    rw [readInt64_toInt, Option.map_some]
  have exp (claims : Accounts.UserClaims) (n : Int64) :
      readAuthMember claims ("exp", .integer n.toInt) = some { claims with expiresAt := n.toInt } := by
    change (readInt64 _ _).map _ = _
    rw [readInt64_toInt, Option.map_some]
  simp only [readAuthClaims, readBack, AuthClaims.members, List.map_cons, List.map_nil, Literal.read,
    List.foldlM_cons, List.foldlM_nil, sub, email, sid, iat, exp, Option.bind_eq_bind, Option.bind_some]
  rfl

theorem readAgentClaims_members (c : AgentClaims) : readAgentClaims (readBack c.members) = some c.coerced := by
  have sub (claims : AgentRuntime.AgentClaims) (text : String) :
      readAgentMember claims ("sub", .text text) = some { claims with agentPubkey := text } := rfl
  have jti (claims : AgentRuntime.AgentClaims) (text : String) :
      readAgentMember claims ("jti", .text text) = some { claims with jti := text } := rfl
  have iat (claims : AgentRuntime.AgentClaims) (n : Int64) :
      readAgentMember claims ("iat", .integer n.toInt) = some { claims with issuedAt := n.toInt } := by
    change (readInt64 _ _).map _ = _
    rw [readInt64_toInt, Option.map_some]
  have exp (claims : AgentRuntime.AgentClaims) (n : Int64) :
      readAgentMember claims ("exp", .integer n.toInt) = some { claims with expiresAt := n.toInt } := by
    change (readInt64 _ _).map _ = _
    rw [readInt64_toInt, Option.map_some]
  have scope (claims : AgentRuntime.AgentClaims) (text : String) :
      readAgentMember claims ("scope", .text text) = some { claims with scope := text } := rfl
  simp only [readAgentClaims, readBack, AgentClaims.members, List.map_cons, List.map_nil, Literal.read,
    List.foldlM_cons, List.foldlM_nil, sub, jti, iat, exp, scope, Option.bind_eq_bind, Option.bind_some]
  rfl

/-- A number is no string and a string is no number: the first member already does not fit. -/
theorem readAgentClaims_auth (c : AuthClaims) : readAgentClaims (readBack c.members) = none := rfl

theorem readAuthClaims_agent (c : AgentClaims) : readAuthClaims (readBack c.members) = none := rfl

theorem readAlg_header : readAlg (readBack headerMembers) = some "HS256" := by
  simp only [readAlg, readBack, headerMembers, List.map_cons, List.map_nil, Literal.read, toValidUTF8_utf8]
  rfl

-- A token verifies as whatever its payload is read as, if its header is read.
theorem signedClaims_user {token : String} {claims : List (String × Literal)}
    (signed : r.sign (trimSpace r.authJWTSecretVar) claims = some token) (header : r.Reads headerMembers)
    (reads : r.Reads claims) : Accounts.signedClaims (r.accounts e) token = readAuthClaims (readBack claims) := by
  obtain ⟨first, second, third, given, parts, first_is, second_is, third_is⟩ := sign_parts signed
  have secret : Accounts.jwtSecret (r.accounts e) = trimSpace r.authJWTSecretVar := rfl
  have mac : (r.accounts e).rawURLDecode third =
      some (Accounts.tokenSignature (r.accounts e) (first ++ "." ++ second)) := third_is
  have alg : ((r.accounts e).rawURLDecode first).bind (r.accounts e).unmarshalAlg = some "HS256" := by
    change ((Base64URL.decode first).bind fun data => (r.members data).bind readAlg) = some "HS256"
    rw [first_is, Option.bind_some, header, Option.bind_some, readAlg_header]
  have payload : ((r.accounts e).rawURLDecode second).bind (r.accounts e).unmarshalClaims =
      readAuthClaims (readBack claims) := by
    change ((Base64URL.decode second).bind fun data => (r.members data).bind readAuthClaims) = _
    rw [second_is, Option.bind_some, reads, Option.bind_some]
  rw [Accounts.signedClaims, secret, if_neg given, parts]
  dsimp only
  rw [if_pos mac, if_pos alg, payload]

theorem signedClaims_agent {token : String} {claims : List (String × Literal)}
    (signed : r.sign r.agentJWTSecret claims = some token) (reads : r.Reads claims) :
    AgentRuntime.signedClaims (r.agents e') token = readAgentClaims (readBack claims) := by
  obtain ⟨first, second, third, given, parts, _, second_is, third_is⟩ := sign_parts signed
  have secret : AgentRuntime.agentJWTSecret (r.agents e') = r.agentJWTSecret := rfl
  have mac : (r.agents e').rawURLDecode third =
      some (AgentRuntime.tokenSignature (r.agents e') (first ++ "." ++ second)) := third_is
  have payload : ((r.agents e').rawURLDecode second).bind (r.agents e').unmarshalClaims =
      readAgentClaims (readBack claims) := by
    change ((Base64URL.decode second).bind fun data => (r.members data).bind readAgentClaims) = _
    rw [second_is, Option.bind_some, reads, Option.bind_some]
  rw [AgentRuntime.signedClaims, secret, if_neg given, parts]
  dsimp only
  rw [if_pos mac, payload]

/-- Whatever secret a token is signed with, it does not verify if its payload is not read. -/
theorem unread_user {secret token : String} {claims : List (String × Literal)} (signed : r.sign secret claims = some token)
    (reads : r.Reads claims) (unread : readAuthClaims (readBack claims) = none) :
    Accounts.signedClaims (r.accounts e) token = none := by
  obtain ⟨first, second, third, _, parts, _, second_is, _⟩ := sign_parts signed
  have payload : ((r.accounts e).rawURLDecode second).bind (r.accounts e).unmarshalClaims = none := by
    change ((Base64URL.decode second).bind fun data => (r.members data).bind readAuthClaims) = _
    rw [second_is, Option.bind_some, reads, Option.bind_some, unread]
  rw [Accounts.signedClaims, parts]
  dsimp only
  rw [payload]
  split
  · rfl
  · split
    · split <;> rfl
    · rfl

theorem unread_agent {secret token : String} {claims : List (String × Literal)} (signed : r.sign secret claims = some token)
    (reads : r.Reads claims) (unread : readAgentClaims (readBack claims) = none) :
    AgentRuntime.signedClaims (r.agents e') token = none := by
  obtain ⟨first, second, third, _, parts, _, second_is, _⟩ := sign_parts signed
  have payload : ((r.agents e').rawURLDecode second).bind (r.agents e').unmarshalClaims = none := by
    change ((Base64URL.decode second).bind fun data => (r.members data).bind readAgentClaims) = _
    rw [second_is, Option.bind_some, reads, Option.bind_some, unread]
  rw [AgentRuntime.signedClaims, parts]
  dsimp only
  rw [payload]
  split
  · rfl
  · split <;> rfl

end Runtime

section Kinds
variable {r : Runtime} (e : Accounts.Environment) (e' : AgentRuntime.Environment) {token : String}

-- A user's token in force is read back as its claims, their texts coerced.
theorem user_round_trip {c : AuthClaims} {now : Time} (signed : r.signJWT c = some token) (header : r.Reads headerMembers)
    (reads : r.Reads c.members) (positive : 0 < c.userID) (email : trimSpace (toValidUTF8 c.email) ≠ "")
    (sessionID : trimSpace (toValidUTF8 c.sessionID) ≠ "") (unexpired : unix now < c.expiresAt.toInt) :
    Follows (Accounts.parseAndVerifyJWT (r.accounts e) token) [] (some c.coerced) [⟨Accounts.Op.now, now⟩] := by
  have verified := signedClaims_user (e := e) signed header reads
  rw [readAuthClaims_members] at verified
  rw [Accounts.parseAndVerifyJWT, verified]
  refine .perform_bind now ?_
  rw [if_neg (by simpa [AuthClaims.coerced] using unexpired), if_neg]
  · exact .ret _ _
  · rintro (low | blank | blank)
    · exact absurd positive (by simpa [AuthClaims.coerced] using low)
    · exact email blank
    · exact sessionID blank

theorem agent_round_trip {c : AgentClaims} {now : Time} (signed : r.signAgentJWT c = some token)
    (reads : r.Reads c.members) (agentPubkey : toValidUTF8 c.agentPubkey ≠ "") (jti : toValidUTF8 c.jti ≠ "")
    (unexpired : unix now < c.expiresAt.toInt) :
    Follows (AgentRuntime.parseAndVerifyAgentJWT (r.agents e') token) [] (some c.coerced)
      [⟨AgentRuntime.Op.now, now⟩] := by
  have verified : AgentRuntime.signedClaims (r.agents e') token = _ := signedClaims_agent signed reads
  rw [readAgentClaims_members] at verified
  rw [AgentRuntime.parseAndVerifyAgentJWT, verified]
  dsimp only
  rw [if_neg]
  · refine .perform_bind now ?_
    rw [if_neg (by simpa [AgentClaims.coerced] using unexpired)]
    exact .ret _ _
  · rintro (blank | blank)
    · exact agentPubkey blank
    · exact jti blank

/-- Neither parser takes the other kind, whatever the claims say and whichever secret is
set. -/
theorem agent_rejects_user {c : AuthClaims} {answer : Option AgentRuntime.AgentClaims}
    {later : Log AgentRuntime.Reply} (signed : r.signJWT c = some token) (reads : r.Reads c.members)
    (run : Follows (AgentRuntime.parseAndVerifyAgentJWT (r.agents e') token) [] answer later) : answer = none := by
  rw [AgentRuntime.parseAndVerifyAgentJWT, unread_agent signed reads (readAgentClaims_auth c)] at run
  cases run
  rfl

theorem user_rejects_agent {c : AgentClaims} {answer : Option Accounts.UserClaims} {later : Log Accounts.Reply}
    (signed : r.signAgentJWT c = some token) (reads : r.Reads c.members)
    (run : Follows (Accounts.parseAndVerifyJWT (r.accounts e) token) [] answer later) : answer = none := by
  rw [Accounts.parseAndVerifyJWT, unread_user signed reads (readAuthClaims_agent c)] at run
  cases run
  rfl

theorem AuthClaims.is_coerced {c : AuthClaims} : c.Is c.coerced ↔ ValidUTF8 c.email ∧ ValidUTF8 c.sessionID := by
  simp [AuthClaims.Is, AuthClaims.coerced, utf8_toValidUTF8]

theorem AgentClaims.is_coerced {c : AgentClaims} :
    c.Is c.coerced ↔ ValidUTF8 c.agentPubkey ∧ ValidUTF8 c.jti ∧ ValidUTF8 c.scope := by
  simp [AgentClaims.Is, AgentClaims.coerced, utf8_toValidUTF8]

def NonblankText (bytes : GoString) : Prop := ∃ text, utf8 text = bytes ∧ trimSpace text ≠ ""

theorem sign_total {secret : String} (given : secret ≠ "") (claims : List (String × Literal)) :
    ∃ token, r.sign secret claims = some token :=
  ⟨_, if_neg given⟩

/-- Both kinds of tokens are read back while they are in force, and neither is taken for
the other; an agent's texts come back as they were exactly when they are valid UTF-8. -/
theorem tokens_round_trip_apart (r : Runtime) (e : Accounts.Environment) (e' : AgentRuntime.Environment) :
    (∀ (c : AuthClaims) (now : Time), trimSpace r.authJWTSecretVar ≠ "" → r.Reads headerMembers → r.Reads c.members →
      0 < c.userID → NonblankText c.email → NonblankText c.sessionID → unix now < c.expiresAt.toInt →
      ∃ token claims, r.signJWT c = some token ∧ c.Is claims ∧
        Follows (Accounts.parseAndVerifyJWT (r.accounts e) token) [] (some claims) [⟨Accounts.Op.now, now⟩]) ∧
    (∀ (c : AgentClaims) (now : Time), r.agentJWTSecret ≠ "" → r.Reads c.members → c.agentPubkey ≠ [] → c.jti ≠ [] →
      unix now < c.expiresAt.toInt →
      ∃ token claims, r.signAgentJWT c = some token ∧
        (c.Is claims ↔ ValidUTF8 c.agentPubkey ∧ ValidUTF8 c.jti ∧ ValidUTF8 c.scope) ∧
        Follows (AgentRuntime.parseAndVerifyAgentJWT (r.agents e') token) [] (some claims)
          [⟨AgentRuntime.Op.now, now⟩]) ∧
    (∀ (c : AuthClaims) (token : String) (answer : Option AgentRuntime.AgentClaims) (later : Log AgentRuntime.Reply),
      r.signJWT c = some token → r.Reads c.members →
      Follows (AgentRuntime.parseAndVerifyAgentJWT (r.agents e') token) [] answer later → answer = none) ∧
    (∀ (c : AgentClaims) (token : String) (answer : Option Accounts.UserClaims) (later : Log Accounts.Reply),
      r.signAgentJWT c = some token → r.Reads c.members →
      Follows (Accounts.parseAndVerifyJWT (r.accounts e) token) [] answer later → answer = none) := by
  refine ⟨?_, ?_, ?_, ?_⟩
  · rintro c now given header reads positive ⟨email, email_is, email_given⟩ ⟨sid, sid_is, sid_given⟩ unexpired
    obtain ⟨token, signed⟩ := sign_total given c.members
    refine ⟨token, c.coerced, signed, AuthClaims.is_coerced.mpr ⟨⟨email, email_is⟩, ⟨sid, sid_is⟩⟩, ?_⟩
    refine user_round_trip e signed header reads positive ?_ ?_ unexpired
    · rwa [← email_is, toValidUTF8_utf8]
    · rwa [← sid_is, toValidUTF8_utf8]
  · intro c now given reads agentPubkey jti unexpired
    obtain ⟨token, signed⟩ := sign_total given c.members
    refine ⟨token, c.coerced, signed, AgentClaims.is_coerced, ?_⟩
    exact agent_round_trip e' signed reads (toValidUTF8_nonempty agentPubkey) (toValidUTF8_nonempty jti) unexpired
  · intro c token answer later signed reads run
    exact agent_rejects_user e' signed reads run
  · intro c token answer later signed reads run
    exact user_rejects_agent e signed reads run

end Kinds

section Meetup

def alice : AuthClaims := ofUser Accounts.aliceSession
def session : AgentClaims := ofAgent AgentRuntime.Agents.sessionClaims

/-- The same session of an agent whose name is one byte that begins no character. -/
def garbled : AgentClaims := { session with agentPubkey := [0xff] }

def aliceDocument : Bytes := Accounts.marshalClaims Accounts.aliceSession
def sessionDocument : Bytes := AgentRuntime.Agents.marshalClaims AgentRuntime.Agents.sessionClaims

def garbledDocument : Bytes :=
  AgentRuntime.Agents.marshalClaims { AgentRuntime.Agents.sessionClaims with agentPubkey := "\\ufffd" }

/-- HMAC-SHA-256 of the unsigned token of `garbled` under "secret". -/
def garbledMac : Bytes :=
  [168, 181, 161, 51, 55, 104, 144, 82, 86, 54, 99, 166, 208, 5, 211, 88, 5, 129, 58, 41, 47, 138, 78, 176,
    25, 58, 196, 89, 49, 14, 145, 28]

/-- The documents and signatures are those of these tokens; only one secret is set. -/
def meetup : Runtime where
  authJWTSecretVar := "secret"
  agentJWTSecretVar := ""
  hmacSHA256 key message :=
    if message = (Base64URL.encode AgentRuntime.Agents.jwtHeader ++ "." ++
      Base64URL.encode garbledDocument).toUTF8.toList then garbledMac
    else if message = AgentRuntime.Agents.unsignedToken.toUTF8.toList then AgentRuntime.Agents.sessionMac
    else Accounts.environment.hmacSHA256 key message
  marshal written :=
    if written = alice.members then aliceDocument
    else if written = session.members then sessionDocument
    else if written = garbled.members then garbledDocument
    else AgentRuntime.Agents.jwtHeader
  members data :=
    if data = aliceDocument then some (readBack alice.members)
    else if data = sessionDocument then some (readBack session.members)
    else if data = garbledDocument then some (readBack garbled.members)
    else if data = AgentRuntime.Agents.jwtHeader then some (readBack headerMembers)
    else none

theorem documents_differ : sessionDocument ≠ aliceDocument ∧ garbledDocument ≠ aliceDocument ∧
    garbledDocument ≠ sessionDocument ∧ AgentRuntime.Agents.jwtHeader ≠ aliceDocument ∧
    AgentRuntime.Agents.jwtHeader ≠ sessionDocument ∧ AgentRuntime.Agents.jwtHeader ≠ garbledDocument := by
  decide +kernel

theorem meetup_reads : meetup.Reads alice.members ∧ meetup.Reads session.members ∧ meetup.Reads garbled.members ∧
    meetup.Reads headerMembers := by
  obtain ⟨session_alice, garbled_alice, garbled_session, header_alice, header_session, header_garbled⟩ :=
    documents_differ
  have written : meetup.marshal alice.members = aliceDocument ∧ meetup.marshal session.members = sessionDocument ∧
      meetup.marshal garbled.members = garbledDocument ∧
      meetup.marshal headerMembers = AgentRuntime.Agents.jwtHeader := by
    have differ : session.members ≠ alice.members ∧ garbled.members ≠ alice.members ∧
        garbled.members ≠ session.members ∧ headerMembers ≠ alice.members ∧ headerMembers ≠ session.members ∧
        headerMembers ≠ garbled.members := by decide +kernel
    obtain ⟨session_alice, garbled_alice, garbled_session, header_alice, header_session, header_garbled⟩ := differ
    simp only [meetup]
    refine ⟨if_pos trivial, ?_, ?_, ?_⟩
    · exact (if_neg session_alice).trans (if_pos trivial)
    · exact (if_neg garbled_alice).trans ((if_neg garbled_session).trans (if_pos trivial))
    · exact (if_neg header_alice).trans ((if_neg header_session).trans (if_neg header_garbled))
  obtain ⟨alice_is, session_is, garbled_is, header_is⟩ := written
  unfold Runtime.Reads
  rw [alice_is, session_is, garbled_is, header_is]
  refine ⟨if_pos rfl, ?_, ?_, ?_⟩
  · exact (if_neg session_alice).trans (if_pos rfl)
  · exact (if_neg garbled_alice).trans ((if_neg garbled_session).trans (if_pos rfl))
  · exact (if_neg header_alice).trans ((if_neg header_session).trans ((if_neg header_garbled).trans (if_pos rfl)))

def soon : Time := (62135596800 + 1754000600) * second

/-- Alice's token and the agent's session under one secret. -/
theorem tokens_round_trip_apart_meetup :
    (∃ token claims, meetup.signJWT alice = some token ∧ alice.Is claims ∧
      Follows (Accounts.parseAndVerifyJWT (meetup.accounts Accounts.environment) token) [] (some claims)
        [⟨Accounts.Op.now, soon⟩]) ∧
    (∃ token claims, meetup.signAgentJWT session = some token ∧ session.Is claims ∧
      Follows (AgentRuntime.parseAndVerifyAgentJWT (meetup.agents AgentRuntime.Agents.environment) token) []
        (some claims) [⟨AgentRuntime.Op.now, soon⟩]) := by
  obtain ⟨alice_reads, session_reads, _, header_reads⟩ := meetup_reads
  obtain ⟨user, agent, _, _⟩ := tokens_round_trip_apart meetup Accounts.environment AgentRuntime.Agents.environment
  constructor
  · exact user alice soon (by decide +kernel) header_reads alice_reads (by decide) ⟨_, rfl, by decide +kernel⟩
      ⟨_, rfl, by decide +kernel⟩ (by decide +kernel)
  · obtain ⟨token, claims, signed, same, run⟩ := agent session soon (by decide +kernel) session_reads (by decide +kernel)
      (by decide +kernel) (by decide +kernel)
    exact ⟨token, claims, signed, same.mpr ⟨⟨_, rfl⟩, ⟨_, rfl⟩, ⟨_, rfl⟩⟩, run⟩

/-- A name that is no text comes back as another. -/
theorem garbled_agent : garbled.agentPubkey ≠ [] ∧ garbled.jti ≠ [] ∧ unix soon < garbled.expiresAt.toInt ∧
    ∃ token claims, meetup.signAgentJWT garbled = some token ∧ ¬ garbled.Is claims ∧
      Follows (AgentRuntime.parseAndVerifyAgentJWT (meetup.agents AgentRuntime.Agents.environment) token) []
        (some claims) [⟨AgentRuntime.Op.now, soon⟩] := by
  obtain ⟨_, _, garbled_reads, _⟩ := meetup_reads
  have secret : meetup.agentJWTSecret ≠ "" := by decide +kernel
  obtain ⟨token, signed⟩ := sign_total (r := meetup) secret garbled.members
  refine ⟨by decide +kernel, by decide +kernel, by decide +kernel, token, garbled.coerced, signed, ?_, ?_⟩
  · rintro ⟨same, _⟩
    revert same
    decide +kernel
  · exact agent_round_trip _ signed garbled_reads (by decide +kernel) (by decide +kernel) (by decide +kernel)

end Meetup

end Payknot.TokenKinds
