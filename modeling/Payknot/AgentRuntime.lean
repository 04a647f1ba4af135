import Payknot.Store
import Payknot.AgentSignature
import Payknot.Interleaving

/-! The agent runtime: `agent_runtime.go` and the signed session middleware of
`agent_jwt.go`. An agent signs a nonce to log in and every settlement request after that.
The world is the agent tables and the clock. -/
namespace Payknot.AgentRuntime
open GoText Interleaving

structure AgentClaims where
  agentPubkey : String
  jti : String
  issuedAt : Int
  expiresAt : Int
  scope : String

/-- The decoded body. JSON has no NaN or infinity, so a float64 is a rational: the shortest
decimal that rounds to it, as the driver writes it. -/
structure AgentCheckoutCreateRequest where
  eventID : Int64
  recipient : String
  amountUSDC : Rat
  memo : String

structure AgentTokenRequest where
  agentPubkey : String
  nonce : String
  signature : String

structure Environment extends Crypto where
  /-- `base58.Decode`. -/
  base58Decode : String → Option Bytes
  /-- Whether `solana.PublicKeyFromBase58` accepts the text. -/
  publicKeyFromBase58 : String → Bool
  /-- `AGENT_JWT_SECRET`, `AUTH_JWT_SECRET` and `SETTLEMENT_MOCK_SUCCESS`. -/
  agentJWTSecretVar : String
  authJWTSecretVar : String
  settlementMockSuccess : String
  hmacSHA256 : Bytes → Bytes → Bytes
  /-- `base64.RawURLEncoding`. -/
  rawURLEncode : Bytes → String
  rawURLDecode : String → Option Bytes
  /-- `json.Marshal` of the token header, and of claims both ways. -/
  jwtHeader : Bytes
  marshalClaims : AgentClaims → Bytes
  unmarshalClaims : Bytes → Option AgentClaims
  decodeCheckout : Bytes → Option AgentCheckoutCreateRequest

section Tables

structure NonceRow where
  agentPubkey : String
  nonce : String
  expiresAt : Time
  usedAt : Option Time

structure AgentSessionRow where
  id : String
  agentPubkey : String
  jti : String
  expiresAt : Time
  revokedAt : Option Time

/-- Rows of `automation_policies` in the order of their ids. -/
structure PolicyRow where
  maxAmountUSDC : Rat
  hourlyTxLimit : Int
  dailyAmountLimitUSDC : Option Rat
  recipientAllowlist : Option (List String)
  active : Bool

inductive IntentStatus where
  | queued | signed | broadcasted | confirmed | failed
  deriving DecidableEq

/-- A row of `automation_intents`, less `policy_reason` and `updated_at`, which no query reads. -/
structure IntentRow where
  id : String
  agentPubkey : String
  eventID : Int64
  recipientWallet : String
  amountUSDC : Rat
  memo : String
  status : IntentStatus
  txSignature : Option String
  idempotencyKey : Option String
  createdAt : Time

structure World where
  nonces : List NonceRow
  sessions : List AgentSessionRow
  policies : List PolicyRow
  intents : List IntentRow
  now : Time
  minted : List String

structure NonceTimes where
  expiresAt : Time
  usedAt : Option Time

/-- The values of the INSERT into `automation_intents`. -/
structure NewIntent where
  id : String
  agentPubkey : String
  eventID : Int64
  recipient : String
  amountUSDC : Rat
  memo : String
  idempotencyKey : Option String

inductive Sql where
  | insertNonce (agentPubkey nonce : String) (expiresAt : Time)
  | selectNonce (agentPubkey nonce : String)
  | markNonceUsed (agentPubkey nonce : String)
  | insertAgentSession (id agentPubkey jti : String) (expiresAt : Time)
  | agentSessionLive (jti agentPubkey : String)
  | touchAgentSession (jti : String)
  | selectHourlyLimit
  | countHour (agentPubkey : String)
  | selectIntent (agentPubkey idempotencyKey : String)
  | insertIntent (intent : NewIntent)
  | confirmIntent (id txSignature : String)
  | failIntent (id : String)

abbrev Sql.Result : Sql → Type
  | .insertNonce _ _ _ => Unit
  | .selectNonce _ _ => Option NonceTimes
  | .markNonceUsed _ _ => Unit
  | .insertAgentSession _ _ _ _ => Unit
  | .agentSessionLive _ _ => Bool
  | .touchAgentSession _ => Unit
  | .selectHourlyLimit => Option Int
  | .countHour _ => Nat
  | .selectIntent _ _ => Option String
  | .insertIntent _ => Unit
  | .confirmIntent _ _ => Unit
  | .failIntent _ => Unit

inductive Op where
  | sql (statement : Sql)
  | newUUID
  /-- `randomNonce(32)`. -/
  | randomNonce
  | now

abbrev Reply : Op → Type
  | .sql statement => Except Fault statement.Result
  | .newUUID => String
  | .randomNonce => Option String
  | .now => Time

end Tables

abbrev Handler := Program Reply

def sql (statement : Sql) : Handler (Except Fault statement.Result) := Program.perform (Op.sql statement)

def newUUID : Handler String := Program.perform Op.newUUID

def timeNow : Handler Time := Program.perform Op.now

inductive Answer where
  | error (text : String) (status : Nat)
  | nonce (nonce : String) (expiresAt : Time)
  | token (accessToken agentID scope : String) (requiresSignedRequests : Bool)
  | settled (txSignature explorerURL : String)

section Tokens

def agentJWTSecret (e : Environment) : String :=
  let v := trimSpace e.agentJWTSecretVar
  if v ≠ "" then v else trimSpace e.authJWTSecretVar

def tokenSignature (e : Environment) (unsigned : String) : Bytes :=
  e.hmacSHA256 (agentJWTSecret e).toUTF8.toList unsigned.toUTF8.toList

def signAgentJWT (e : Environment) (claims : AgentClaims) : Option String :=
  if agentJWTSecret e = "" then none
  else
    let unsigned := e.rawURLEncode e.jwtHeader ++ "." ++ e.rawURLEncode (e.marshalClaims claims)
    some (unsigned ++ "." ++ e.rawURLEncode (tokenSignature e unsigned))

/-- The claims of a token with the right signature; the header is not looked at. -/
def signedClaims (e : Environment) (token : String) : Option AgentClaims :=
  if agentJWTSecret e = "" then none
  else
    match split token '.' with
    | [header, payload, signature] =>
        if e.rawURLDecode signature = some (tokenSignature e (header ++ "." ++ payload)) then
          (e.rawURLDecode payload).bind e.unmarshalClaims
        else none
    | _ => none

-- An issued token is read back as its claims, if its parts are.
theorem signedClaims_signAgentJWT {e : Environment} {claims : AgentClaims} {token : String}
    (signed : signAgentJWT e claims = some token) (no_dot : ∀ data, '.' ∉ (e.rawURLEncode data).toList)
    (payload : e.rawURLDecode (e.rawURLEncode (e.marshalClaims claims)) = some (e.marshalClaims claims))
    (signature : ∀ unsigned, unsigned = e.rawURLEncode e.jwtHeader ++ "." ++
        e.rawURLEncode (e.marshalClaims claims) →
      e.rawURLDecode (e.rawURLEncode (tokenSignature e unsigned)) = some (tokenSignature e unsigned))
    (unmarshals : e.unmarshalClaims (e.marshalClaims claims) = some claims) :
    signedClaims e token = some claims := by
  unfold signAgentJWT at signed
  split at signed
  · cases signed
  · next secret =>
    cases signed
    rw [signedClaims, if_neg secret]
    simp only [split_dotted (no_dot _) (no_dot _) (no_dot _), signature _ rfl, payload, unmarshals,
      if_true, Option.bind_some]

def parseAndVerifyAgentJWT (e : Environment) (token : String) : Handler (Option AgentClaims) := do
  let some claims := signedClaims e token | return none
  if claims.agentPubkey = "" ∨ claims.jti = "" then return none
  let now ← timeNow
  if claims.expiresAt ≤ unix now then return none
  return some claims

def jwtBackedAgentClaimsFromRequest (e : Environment) (token : String) : Handler (Option AgentClaims) := do
  let some claims ← parseAndVerifyAgentJWT e token | return none
  match ← sql (.agentSessionLive claims.jti claims.agentPubkey) with
  | .ok true =>
      let _ ← sql (.touchAgentSession claims.jti)
      return some claims
  | _ => return none

def bearerToken (authorization : String) : String :=
  let authz := trimSpace authorization
  if hasPrefix (toLower Char.toLower authz) "bearer " then
    trimSpace (String.ofList (authz.toList.drop 7))
  else ""

theorem bearerToken_bearer {token : String} (some_text : token ≠ "")
    (plain : ∀ c ∈ token.toList, isSpace c = false) : bearerToken ("Bearer " ++ token) = token := by
  have text : ("Bearer " ++ token).toList = 'B' :: 'e' :: 'a' :: 'r' :: 'e' :: 'r' :: ' ' :: token.toList := by
    rw [String.toList_append]
    rfl
  have whole : trimSpace ("Bearer " ++ token) = "Bearer " ++ token := by
    apply trimSpace_self
    · rw [text]
      rintro _ ⟨⟩
      decide
    · rw [text]
      intro c last
      have some_rune : token.toList ≠ [] := by simpa using some_text
      obtain ⟨first, rest, runes⟩ := List.exists_cons_of_ne_nil some_rune
      rw [runes] at last
      simp only [List.getLast?_cons_cons] at last
      exact plain c (runes ▸ List.mem_of_mem_getLast? last)
  have rest : trimSpace token = token :=
    trimSpace_self (fun c first => plain c (List.mem_of_mem_head? first))
      fun c last => plain c (List.mem_of_mem_getLast? last)
  have scheme : hasPrefix (toLower Char.toLower ("Bearer " ++ token)) "bearer " = true := by
    rw [hasPrefix, toLower, text, String.toList_ofList]
    simp
  rw [bearerToken]
  simp only [whole, scheme, if_true, text, List.drop, String.ofList_toList, rest]

/-- A request to `/api/agent/checkout/create`: what is signed, and two headers that are not. -/
structure CheckoutRequest where
  signed : SignedRequest
  authorization : String
  idempotencyKey : String

def signedAgentSessionClaimsFromRequest (e : Environment) (r : CheckoutRequest) :
    Handler (Option AgentClaims) := do
  let token := bearerToken r.authorization
  if token = "" ∨ hasPrefix token "pkt_pat_" then return none
  let some claims ← jwtBackedAgentClaimsFromRequest e token | return none
  let some pub := e.base58Decode claims.agentPubkey | return none
  if pub.length ≠ 32 then return none
  if ← verifyEd25519RequestSignature e.toCrypto timeNow r.signed pub then return some claims
  return none

end Tokens

section Login

def agentAuthNonce (e : Environment) (method agentPubkey : String) : Handler Answer := do
  if method ≠ "GET" then return .error "Method not allowed" 405
  let pub := trimSpace agentPubkey
  if pub = "" then return .error "agent_pubkey is required" 400
  if e.base58Decode pub = none then return .error "invalid agent_pubkey" 400
  let some nonce ← (Program.perform Op.randomNonce : Handler (Option String))
    | return .error "failed to generate nonce" 500
  let expires := (← timeNow) + 5 * minute
  match ← sql (.insertNonce pub nonce expires) with
  | .error _ => return .error "failed to persist nonce" 500
  | .ok _ => return .nonce nonce expires

def writeAgentAuthResponse (e : Environment) (agentID scope : String) : Handler Answer := do
  let jti ← newUUID
  let sessionExp := (← timeNow) + 24 * 60 * minute
  let issuedAt ← timeNow
  match signAgentJWT e ⟨agentID, jti, unix issuedAt, unix sessionExp, scope⟩ with
  | none => return .error "failed to issue token" 500
  | some token =>
      let id ← newUUID
      match ← sql (.insertAgentSession id agentID jti sessionExp) with
      | .error _ => return .error "failed to persist session" 500
      | .ok _ => return .token token agentID scope (hasPrefix scope "agent:settlement")

def loginSignature (e : Environment) (agentPubkey nonce signature : String) : Except String Unit :=
  match e.base58Decode agentPubkey with
  | none => .error "invalid agent_pubkey"
  | some pub =>
      if pub.length ≠ 32 then .error "invalid agent_pubkey"
      else
        match e.base58Decode signature with
        | none => .error "invalid signature"
        | some sig =>
            if sig.length ≠ 64 then .error "invalid signature"
            else if e.ed25519Verify pub nonce.toUTF8.toList sig then .ok ()
            else .error "signature verification failed"

def agentAuthToken (e : Environment) (method : String) (body : Option AgentTokenRequest) :
    Handler Answer := do
  if method ≠ "POST" then return .error "Method not allowed" 405
  let some req := body | return .error "invalid request body" 400
  let agentPubkey := trimSpace req.agentPubkey
  let nonce := trimSpace req.nonce
  let signature := trimSpace req.signature
  if agentPubkey = "" ∨ nonce = "" ∨ signature = "" then
    return .error "agent_pubkey, nonce, signature are required" 400
  match ← sql (.selectNonce agentPubkey nonce) with
  | .ok (some ⟨expiresAt, none⟩) =>
      let now ← timeNow
      if expiresAt < now then return .error "nonce expired or already used" 401
      match loginSignature e agentPubkey nonce signature with
      | .error text => return .error text 401
      | .ok _ =>
          let _ ← sql (.markNonceUsed agentPubkey nonce)
          writeAgentAuthResponse e agentPubkey "agent:settlement"
  | .ok (some ⟨_, some _⟩) => return .error "nonce expired or already used" 401
  | _ => return .error "invalid nonce" 401

end Login

section Settlement

/-- `strings.EqualFold(v, "true")`: no other letters fold to these four. -/
def equalFoldTrue (v : String) : Bool := toLower Char.toLower v = "true"

def mockEnabled (e : Environment) : Bool :=
  equalFoldTrue (trimSpace e.settlementMockSuccess) || trimSpace e.settlementMockSuccess = ""

def nullIfEmpty (v : String) : Option String := if trimSpace v = "" then none else some (trimSpace v)

def explorerFor (sig : String) : String :=
  if trimSpace sig = "" then "" else "https://explorer.solana.com/tx/" ++ sig

/-- `"mock_" + strings.ReplaceAll(uuid, "-", "")`. -/
def mockSignature (uuid : String) : String := "mock_" ++ String.ofList (uuid.toList.filter (· ≠ '-'))

/-- The policy checks on the body alone, in the order of the source. -/
def policyRejects (e : Environment) (req : AgentCheckoutCreateRequest) : Option String :=
  if req.amountUSDC ≤ 0 ∨ req.amountUSDC > 500 then
    some "policy rejected: amount_usdc must be > 0 and <= 500"
  else if trimSpace req.memo = "" then some "policy rejected: memo is required"
  else if !e.publicKeyFromBase58 (trimSpace req.recipient) then
    some "policy rejected: recipient must be valid Solana address"
  else none

/-- `if err != nil || hourlyLimit <= 0 { hourlyLimit = 10 }`. -/
def scannedLimit : Except Fault (Option Int) → Int
  | .ok (some hourlyLimit) => if hourlyLimit ≤ 0 then 10 else hourlyLimit
  | _ => 10

def scannedCount : Except Fault Nat → Nat
  | .ok hourCount => hourCount
  | .error _ => 0

/-- The rest of the request once the hourly limit and the idempotency key have let it pass. -/
def settle (e : Environment) (agentPubkey : String) (req : AgentCheckoutCreateRequest) (idem : String) :
    Handler Answer := do
  let intentID ← newUUID
  let _ ← sql (.insertIntent ⟨intentID, agentPubkey, req.eventID, trimSpace req.recipient, req.amountUSDC,
    trimSpace req.memo, nullIfEmpty idem⟩)
  if mockEnabled e then
    let mockSig := mockSignature (← newUUID)
    let _ ← sql (.confirmIntent intentID mockSig)
    return .settled mockSig (explorerFor mockSig)
  let _ ← sql (.failIntent intentID)
  return .error "settlement signer is not configured" 500

def agentCheckoutCreate (e : Environment) (agent : AgentClaims) (r : CheckoutRequest) : Handler Answer := do
  if r.signed.method ≠ "POST" then return .error "Method not allowed" 405
  let some req := r.signed.body.bind e.decodeCheckout | return .error "invalid request body" 400
  match policyRejects e req with
  | some text => return .error text 403
  | none =>
      let hourlyLimit := scannedLimit (← sql .selectHourlyLimit)
      let hourCount := scannedCount (← sql (.countHour agent.agentPubkey))
      if (hourCount : Int) ≥ hourlyLimit then
        return .error "policy rejected: hourly transaction limit exceeded" 403
      let idem := trimSpace r.idempotencyKey
      if idem ≠ "" then
        match ← sql (.selectIntent agent.agentPubkey idem) with
        | .ok (some txSig) => return .settled txSig (explorerFor txSig)
        | _ => settle e agent.agentPubkey req idem
      else settle e agent.agentPubkey req idem

/-- `RequireAgentSignedSession(AgentCheckoutCreate)`. -/
def createCheckout (e : Environment) (r : CheckoutRequest) : Handler Answer := do
  match ← signedAgentSessionClaimsFromRequest e r with
  | none => return .error "Unauthorized" 401
  | some claims => agentCheckoutCreate e claims r

end Settlement

inductive Request where
  | authNonce (method agentPubkey : String)
  | authToken (method : String) (body : Option AgentTokenRequest)
  | createCheckout (r : CheckoutRequest)

def handler (e : Environment) : Request → Handler Answer
  | .authNonce method agentPubkey => agentAuthNonce e method agentPubkey
  | .authToken method body => agentAuthToken e method body
  | .createCheckout r => createCheckout e r

section Execution

/-- What the outside decides at a step: whether a statement fails, and random text. -/
structure Choice where
  fault : Option Fault
  random : Option String

def uniqueViolation (constraint : String) : Fault :=
  ⟨"ERROR: duplicate key value violates unique constraint \"" ++ constraint ++ "\" (SQLSTATE 23505)"⟩

def hour : Time := 60 * minute

def IntentRow.counts (row : IntentRow) : Bool :=
  row.status = .signed || (row.status = .broadcasted || row.status = .confirmed)

def markUsed (agentPubkey nonce : String) (now : Time) (nonces : List NonceRow) : List NonceRow :=
  nonces.map fun row =>
    if row.agentPubkey = agentPubkey ∧ row.nonce = nonce then { row with usedAt := some now } else row

def sameKey (intent : NewIntent) (row : IntentRow) : Bool :=
  intent.idempotencyKey.isSome && (row.agentPubkey = intent.agentPubkey &&
    row.idempotencyKey = intent.idempotencyKey)

/-- What a `NUMERIC(20,6)` column makes of a value: six decimals, halves away from zero. -/
def numeric6 (value : Rat) : Rat :=
  if 0 ≤ value then (value * 1000000 + 1 / 2).floor / 1000000 else -((-value * 1000000 + 1 / 2).floor / 1000000)

def NewIntent.texts (intent : NewIntent) : List String :=
  [intent.agentPubkey, intent.recipient, intent.memo, intent.idempotencyKey.getD ""]

def NewIntent.row (intent : NewIntent) (now : Time) : IntentRow :=
  { id := intent.id, agentPubkey := intent.agentPubkey, eventID := intent.eventID
    recipientWallet := intent.recipient, amountUSDC := numeric6 intent.amountUSDC, memo := intent.memo
    status := .queued, txSignature := none, idempotencyKey := intent.idempotencyKey, createdAt := now }

def IntentRow.confirm (row : IntentRow) (txSignature : String) : IntentRow :=
  { row with status := .confirmed, txSignature := some txSignature }

def confirmRow (id txSignature : String) (intents : List IntentRow) : List IntentRow :=
  intents.map fun row => if row.id = id then row.confirm txSignature else row

def failRow (id : String) (intents : List IntentRow) : List IntentRow :=
  intents.map fun row => if row.id = id then { row with status := .failed } else row

def runSql : (statement : Sql) → World → Except Fault (statement.Result × World)
  | .insertNonce agentPubkey nonce expiresAt, w =>
      if w.nonces.any (·.nonce = nonce) then .error (uniqueViolation "agent_nonces_nonce_key")
      else .ok ((), { w with nonces := w.nonces ++ [⟨agentPubkey, nonce, expiresAt, none⟩] })
  -- A nonce is unique, so there is at most one row to take the latest of.
  | .selectNonce agentPubkey nonce, w =>
      .ok ((w.nonces.find? fun row => row.agentPubkey = agentPubkey ∧ row.nonce = nonce).map
        fun row => ⟨row.expiresAt, row.usedAt⟩, w)
  | .markNonceUsed agentPubkey nonce, w =>
      .ok ((), { w with nonces := markUsed agentPubkey nonce w.now w.nonces })
  | .insertAgentSession id agentPubkey jti expiresAt, w =>
      if w.sessions.any (·.id = id) then .error (uniqueViolation "agent_sessions_pkey")
      else if w.sessions.any (·.jti = jti) then .error (uniqueViolation "agent_sessions_jwt_jti_key")
      else .ok ((), { w with sessions := w.sessions ++ [⟨id, agentPubkey, jti, expiresAt, none⟩] })
  | .agentSessionLive jti agentPubkey, w =>
      .ok (w.sessions.any fun row => row.jti = jti && (row.agentPubkey = agentPubkey &&
        (row.revokedAt.isNone && w.now < row.expiresAt)), w)
  | .touchAgentSession _, w => .ok ((), w)
  | .selectHourlyLimit, w => .ok ((w.policies.find? (·.active)).map (·.hourlyTxLimit), w)
  | .countHour agentPubkey, w =>
      .ok ((w.intents.filter fun row => row.agentPubkey = agentPubkey &&
        (row.createdAt > w.now - hour && row.counts)).length, w)
  | .selectIntent agentPubkey idempotencyKey, w =>
      .ok ((w.intents.find? fun row => row.agentPubkey = agentPubkey ∧
        row.idempotencyKey = some idempotencyKey).map fun row => row.txSignature.getD "", w)
  | .insertIntent intent, w =>
      if !intent.texts.all storable then .error invalidByteSequence
      else if w.intents.any (·.id = intent.id) then .error (uniqueViolation "automation_intents_pkey")
      else if w.intents.any (sameKey intent) then
        .error (uniqueViolation "automation_intents_agent_idem_idx")
      else .ok ((), { w with intents := w.intents ++ [intent.row w.now] })
  | .confirmIntent id txSignature, w =>
      .ok ((), { w with intents := confirmRow id txSignature w.intents })
  | .failIntent id, w => .ok ((), { w with intents := failRow id w.intents })

def isNonce (text : String) : Bool := text.length = 32 && text.toList.all Char.isAlphanum

def exec (choice : Choice) : (op : Op) → World → Option (Reply op × World)
  | .sql statement, w =>
      match choice.fault, runSql statement w with
      | some fault, _ => some (.error fault, w)
      | none, .error fault => some (.error fault, w)
      | none, .ok (result, after) => some (.ok result, after)
  | .newUUID, w =>
      match choice.random with
      | some uuid => if uuid ∈ w.minted then none else some (uuid, { w with minted := uuid :: w.minted })
      | none => none
  | .randomNonce, w => if choice.random.all isNonce then some (choice.random, w) else none
  | .now, w => some (w.now, w)

def occur (elapsed : Nat) (w : World) : Option World := some { w with now := w.now + elapsed }

def machine (e : Environment) : Machine Reply World Choice Nat Request Answer where
  exec := exec
  occur := occur
  handler := handler e

end Execution

abbrev Service := Config Reply World Request Answer
abbrev ServiceLabel := Label Choice Nat Request
abbrev ServiceThread := Thread Reply Request Answer

end Payknot.AgentRuntime
