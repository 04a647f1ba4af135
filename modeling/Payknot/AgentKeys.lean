import Payknot.PaymentSessions
import Payknot.AgentSignature
import Payknot.Interleaving

/-! Agent keys: `agent_keys.go` and the key cache of `middleware/auth.go`. The world is
the table `agent_api_keys`, the cache shared by all requests and the clock; a critical
section of the cache's mutex is one step. -/
namespace Payknot.AgentKeys
open GoText Interleaving

structure Environment extends Crypto where
  /-- `os.Getenv("AGENT_PUBLIC_KEYS_JSON")` and `os.Getenv("AGENT_KEY_CACHE_TTL_SECONDS")`. -/
  agentPublicKeysJSON : String
  agentKeyCacheTTLSeconds : String
  /-- `json.Unmarshal` into a `map[string]string`, its members in any order. -/
  unmarshalStrings : String → Option (List (String × String))

/-- `map[string]ed25519.PublicKey`; the entry set last is the one that counts. -/
abbrev KeyMap := List (String × Bytes)

def KeyMap.set (keys : KeyMap) (agentID : String) (key : Bytes) : KeyMap := (agentID, key) :: keys

/-- `keys[agentID]` of a possibly nil map. -/
def lookupKey (keys : Option KeyMap) (agentID : String) : Option Bytes :=
  ((keys.getD []).find? fun entry => entry.1 = agentID).map Prod.snd

/-- A row of `agent_api_keys`, less its id and creation time. -/
structure KeyRow where
  agentId : String
  publicKeyBase64 : String
  active : Bool
  createdBy : String
  revokedAt : Option Time

structure AgentKeyCache where
  keys : Option KeyMap
  expiresAt : Time

structure World where
  rows : List KeyRow
  cache : AgentKeyCache
  now : Time

inductive Sql where
  | selectActiveKeys
  | upsertKey (agentID publicKeyBase64 createdBy : String)
  | revokeKey (agentID : String)

abbrev Sql.Result : Sql → Type
  | .selectActiveKeys => List (String × String)
  | .upsertKey _ _ _ => Unit
  | .revokeKey _ => Unit

inductive Op where
  | sql (statement : Sql)
  | now
  | readCache
  | writeCache (keys : Option KeyMap) (expiresAt : Time)
  | invalidateCache

abbrev Reply : Op → Type
  | .sql statement => Except Fault statement.Result
  | .now => Time
  | .readCache => AgentKeyCache
  | .writeCache _ _ => Unit
  | .invalidateCache => Unit

abbrev Handler := Program Reply

def sql (statement : Sql) : Handler (Except Fault statement.Result) := Program.perform (Op.sql statement)

def timeNow : Handler Time := Program.perform Op.now

def readCache : Handler AgentKeyCache := Program.perform Op.readCache

def writeCache (keys : Option KeyMap) (expiresAt : Time) : Handler Unit :=
  Program.perform (Op.writeCache keys expiresAt)

/-- `InvalidateAgentKeyCache`. -/
def invalidateAgentKeyCache : Handler Unit := Program.perform Op.invalidateCache

def agentKeyCacheTTL (e : Environment) : Time :=
  match parseInt (trimSpace e.agentKeyCacheTTLSeconds) with
  | .ok sec => if 0 < sec.toInt then (sec * 1000000000).toInt else 60 * second
  | .error _ => 60 * second

def usableKey (e : Environment) (agentID keyB64 : String) : Option (String × Bytes) :=
  let agentID := trimSpace agentID
  match e.base64Decode (trimSpace keyB64) with
  | some keyBytes => if agentID ≠ "" ∧ keyBytes.length = 32 then some (agentID, keyBytes) else none
  | none => none

def addKey (e : Environment) (out : KeyMap) (entry : String × String) : KeyMap :=
  match usableKey e entry.1 entry.2 with
  | some (agentID, key) => out.set agentID key
  | none => out

def collectKeys (e : Environment) (entries : List (String × String)) : KeyMap :=
  entries.foldl (addKey e) []

def agentPublicKeysFromEnv (e : Environment) : Option KeyMap :=
  let raw := trimSpace e.agentPublicKeysJSON
  if raw = "" then none else (e.unmarshalStrings raw).map (collectKeys e)

def agentPublicKeysFromDB (e : Environment) : Handler (Except Fault KeyMap) := do
  match ← sql .selectActiveKeys with
  | .error fault => return .error fault
  | .ok rows => return .ok (collectKeys e rows)

/-- `if err != nil || len(keys) == 0 { keys = agentPublicKeysFromEnv() }`. -/
def keysInForce (e : Environment) : Except Fault KeyMap → Option KeyMap
  | .ok keys => if keys.isEmpty then agentPublicKeysFromEnv e else some keys
  | .error _ => agentPublicKeysFromEnv e

def AgentKeyCache.fresh (cache : AgentKeyCache) (now : Time) : Option KeyMap :=
  if now < cache.expiresAt then cache.keys else none

def agentPublicKeys (e : Environment) : Handler (Option KeyMap) := do
  let now ← timeNow
  let cache ← readCache
  match cache.fresh now with
  | some cached => return some cached
  | none =>
      let keys := keysInForce e (← agentPublicKeysFromDB e)
      writeCache keys (now + agentKeyCacheTTL e)
      return keys

structure AgentAuthClaims where
  userID : Int64
  email : String
  sessionID : String
  issuedAt : Int
  expiresAt : Int

/-- `agentID` is the `X-Agent-Id` header. -/
def verifyAgentSignature (e : Environment) (agentID : String) (r : SignedRequest) :
    Handler (Option AgentAuthClaims) := do
  let agentID := trimSpace agentID
  if agentID = "" then return none
  let keys ← agentPublicKeys e
  match lookupKey keys agentID with
  | none => return none
  | some pub =>
      if ← verifyEd25519RequestSignature e.toCrypto timeNow r pub then
        let now ← timeNow
        return some ⟨-1, "agent:" ++ agentID, "agent:" ++ agentID, unix now, unix now + 3600⟩
      else return none

structure AgentKeyUpsertRequest where
  agentID : String
  publicKeyBase64 : String

structure AgentKeyRevokeRequest where
  agentID : String

inductive Answer where
  | error (text : String) (status : Nat)
  | ok (agentID : String)
  | keys (keys : Option KeyMap)
  | verified (claims : Option AgentAuthClaims)

def upsertAgentKey (e : Environment) (claims : Option AuthClaims) (body : Option AgentKeyUpsertRequest) :
    Handler Answer := do
  let some claims := claims | return .error "Unauthorized" 401
  let some req := body | return .error "Invalid request body" 400
  let agentID := trimSpace req.agentID
  let publicKeyBase64 := trimSpace req.publicKeyBase64
  if agentID = "" ∨ publicKeyBase64 = "" then
    return .error "agentId and publicKeyBase64 are required" 400
  let some decoded := e.base64Decode publicKeyBase64
    | return .error "publicKeyBase64 must be valid base64 ed25519 public key" 400
  if decoded.length ≠ 32 then
    return .error "publicKeyBase64 must be valid base64 ed25519 public key" 400
  match ← sql (.upsertKey agentID publicKeyBase64 claims.email) with
  | .error _ => return .error "Failed to upsert agent key" 500
  | .ok _ =>
      invalidateAgentKeyCache
      return .ok agentID

def revokeAgentKey (r : HttpRequest AgentKeyRevokeRequest) : Handler Answer := do
  if r.method ≠ .post then return .error "Method not allowed" 405
  let some req := r.body | return .error "Invalid request body" 400
  let agentID := trimSpace req.agentID
  if agentID = "" then return .error "agentId is required" 400
  match ← sql (.revokeKey agentID) with
  | .error _ => return .error "Failed to revoke agent key" 500
  | .ok _ =>
      invalidateAgentKeyCache
      return .ok agentID

/-- Requests of a host, whose session the route has checked, and calls that read the keys. -/
inductive Request where
  | upsert (claims : Option AuthClaims) (body : Option AgentKeyUpsertRequest)
  | revoke (claims : Option AuthClaims) (r : HttpRequest AgentKeyRevokeRequest)
  | agentPublicKeys
  | verify (agentID : String) (r : SignedRequest)

def handler (e : Environment) : Request → Handler Answer
  | .upsert claims body => upsertAgentKey e claims body
  | .revoke _ r => revokeAgentKey r
  | .agentPublicKeys => do return .keys (← agentPublicKeys e)
  | .verify agentID r => do return .verified (← verifyAgentSignature e agentID r)

/-- `WHERE active = TRUE AND revoked_at IS NULL`. -/
def KeyRow.inForce (row : KeyRow) : Bool := row.active && row.revokedAt.isNone

def activeKeys (rows : List KeyRow) : List (String × String) :=
  (rows.filter KeyRow.inForce).map fun row => (row.agentId, row.publicKeyBase64)

/-- `ON CONFLICT (agent_id) DO UPDATE`. -/
def KeyRow.overwrite (row : KeyRow) (publicKeyBase64 createdBy : String) : KeyRow :=
  { row with publicKeyBase64 := publicKeyBase64, active := true, revokedAt := none
             createdBy := createdBy }

def upsertRow (agentID publicKeyBase64 createdBy : String) (rows : List KeyRow) : List KeyRow :=
  if rows.any (·.agentId = agentID) then
    rows.map fun row => if row.agentId = agentID then row.overwrite publicKeyBase64 createdBy else row
  else rows ++ [⟨agentID, publicKeyBase64, true, createdBy, none⟩]

def revokeRow (agentID : String) (now : Time) (rows : List KeyRow) : List KeyRow :=
  rows.map fun row =>
    if row.agentId = agentID then { row with active := false, revokedAt := some now } else row

/-- What the outside decides at a step: a statement fails, or the connection is lost
after some rows, which `rows.Next` ends like the last row. -/
structure Choice where
  fault : Option Fault
  cut : Option Nat

def Choice.delivered (choice : Choice) (keys : List (String × String)) : List (String × String) :=
  match choice.cut with
  | none => keys
  | some n => keys.take n

def runSql (choice : Choice) : (statement : Sql) → World → Except Fault statement.Result × World
  | statement, w =>
      match choice.fault with
      | some fault => (.error fault, w)
      | none =>
          match statement with
          | .selectActiveKeys => (.ok (choice.delivered (activeKeys w.rows)), w)
          | .upsertKey agentID publicKeyBase64 createdBy =>
              (.ok (), { w with rows := upsertRow agentID publicKeyBase64 createdBy w.rows })
          | .revokeKey agentID => (.ok (), { w with rows := revokeRow agentID w.now w.rows })

def exec (choice : Choice) : (op : Op) → World → Option (Reply op × World)
  | .sql statement, w => some (runSql choice statement w)
  | .now, w => some (w.now, w)
  | .readCache, w => some (w.cache, w)
  | .writeCache keys expiresAt, w => some ((), { w with cache := ⟨keys, expiresAt⟩ })
  -- `time.Time{}`
  | .invalidateCache, w => some ((), { w with cache := ⟨none, 0⟩ })

def occur (elapsed : Nat) (w : World) : Option World := some { w with now := w.now + elapsed }

def machine (e : Environment) : Machine Reply World Choice Nat Request Answer where
  exec := exec
  occur := occur
  handler := handler e

abbrev Service := Config Reply World Request Answer
abbrev ServiceLabel := Label Choice Nat Request
abbrev ServiceThread := Thread Reply Request Answer

end Payknot.AgentKeys
