import Payknot.Execution
import Payknot.Checkout
import Payknot.AgentSignature

/-! User accounts: the tables behind `auth.go`, `agent_pat.go` and the sessions of
`middleware/auth.go`. The world is `users`, `user_sessions`, the personal access tokens
and the clock; Google, the mail service and the random source answer from outside. -/
namespace Payknot.Accounts
open GoText Interleaving

structure UserClaims where
  userID : Int64
  email : String
  sessionID : String
  issuedAt : Int
  expiresAt : Int

structure Environment extends Crypto where
  lowerRune : Char → Char
  /-- PostgreSQL's `::uuid` followed by `::text`. -/
  uuidText : String → Option String
  /-- `AUTH_JWT_SECRET` and `GOOGLE_CLIENT_ID`. -/
  authJWTSecretVar : String
  googleClientIDVar : String
  hmacSHA256 : Bytes → Bytes → Bytes
  /-- `base64.RawURLEncoding`. -/
  rawURLEncode : Bytes → String
  rawURLDecode : String → Option Bytes
  /-- `json.Marshal` of the token header, and the `alg` of a header that decodes. -/
  jwtHeader : Bytes
  unmarshalAlg : Bytes → Option String
  /-- `json.Marshal` of claims, both ways. -/
  marshalClaims : UserClaims → Bytes
  unmarshalClaims : Bytes → Option UserClaims
  /-- `bcrypt.CompareHashAndPassword(hash, password) == nil`. -/
  bcryptMatches : String → String → Bool

section Tables

/-- The values of `users.auth_provider`. -/
inductive Provider where
  | password | google
  deriving DecidableEq

def Provider.text : Provider → String
  | .password => "password"
  | .google => "google"

/-- The two kinds of emailed tokens, each with a pair of columns of its own. -/
inductive TokenKind where
  | verification | reset
  deriving DecidableEq

structure StoredToken where
  hash : String
  expiresAt : Time

structure UserRow where
  id : Int64
  name : String
  email : String
  passwordHash : Option String
  authProvider : Provider
  emailVerified : Bool
  /-- `email_verification_token_hash` and `_expires_at`, which are set and cleared together. -/
  verification : Option StoredToken
  /-- `password_reset_token_hash` and `_expires_at`. -/
  reset : Option StoredToken

structure UserSessionRow where
  id : String
  userID : Int64
  expiresAt : Time
  revokedAt : Option Time

/-- A row of `agent_personal_access_tokens`. -/
structure TokenRow where
  id : String
  userID : Int64
  tokenName : String
  tokenPrefix : String
  tokenHash : String
  scope : String
  createdAt : Time
  lastUsedAt : Option Time
  expiresAt : Option Time
  revokedAt : Option Time

structure World where
  users : List UserRow
  nextUserID : Nat
  sessions : List UserSessionRow
  tokens : List TokenRow
  now : Time
  /-- The UUIDs and the random texts drawn so far. -/
  minted : List String
  drawn : List String

/-- The values of the INSERT into `agent_personal_access_tokens`. -/
structure NewToken where
  id : String
  userID : Int64
  tokenName : String
  tokenPrefix : String
  tokenHash : String
  expiresAt : Option Time

structure TokenOwner where
  tokenID : String
  userID : Int64
  email : String
  scope : String

inductive Sql where
  | insertPasswordUser (name email passwordHash : String)
  | insertGoogleUser (name email : String)
  | selectUserByEmail (email : String)
  | selectUser (id : Int64)
  /-- `SET name = $1, email_verified = true`. -/
  | refreshGoogleUser (name : String) (id : Int64)
  | setToken (kind : TokenKind) (token : StoredToken) (id : Int64)
  | verifyEmail (hash : String)
  | resetPassword (passwordHash hash : String)
  | insertUserSession (id : String) (userID : Int64) (expiresAt : Time)
  | userSessionLive (id : String) (userID : Int64)
  | revokeUserSession (id : String)
  | insertToken (token : NewToken)
  | listTokens (userID : Int64)
  | selectTokenOwner (tokenHash : String)
  | touchToken (id : String)
  | revokeToken (id : String) (userID : Int64)

abbrev Sql.Result : Sql → Type
  | .insertPasswordUser _ _ _ | .insertGoogleUser _ _ => Int64
  | .selectUserByEmail _ | .selectUser _ => Option UserRow
  | .verifyEmail _ | .resetPassword _ _ => Nat
  | .userSessionLive _ _ => Bool
  | .listTokens _ => List TokenRow
  | .selectTokenOwner _ => Option TokenOwner
  | _ => Unit

/-- The answer of Google's `tokeninfo`. -/
structure GooglePayload where
  aud : String
  email : String
  name : String
  emailVerified : String

inductive GoogleReply where
  | unavailable
  | refused
  | undecodable
  | payload (payload : GooglePayload)

inductive Op where
  | sql (statement : Sql)
  | newUUID
  /-- `hex.EncodeToString` of so many random bytes. -/
  | randomHex (size : Nat)
  | now
  /-- `bcrypt.GenerateFromPassword`. -/
  | bcryptGenerate (password : String)
  | googleTokenInfo (credential : String)
  /-- A mail with the link to the token. -/
  | sendEmail (logTag email token : String)

abbrev Reply : Op → Type
  | .sql statement => Except Fault statement.Result
  | .newUUID => String
  | .randomHex _ => Option String
  | .now => Time
  | .bcryptGenerate _ => Option String
  | .googleTokenInfo _ => GoogleReply
  | .sendEmail _ _ _ => Except Fault Unit

end Tables

abbrev Handler := Program Reply

def sql (statement : Sql) : Handler (Except Fault statement.Result) := Program.perform (Op.sql statement)

def newUUID : Handler String := Program.perform Op.newUUID

def randomHex (size : Nat) : Handler (Option String) := Program.perform (Op.randomHex size)

def timeNow : Handler Time := Program.perform Op.now

def bcryptGenerate (password : String) : Handler (Option String) := Program.perform (Op.bcryptGenerate password)

def googleTokenInfo (credential : String) : Handler GoogleReply := Program.perform (Op.googleTokenInfo credential)

def sendEmail (logTag email token : String) : Handler (Except Fault Unit) :=
  Program.perform (Op.sendEmail logTag email token)

structure AuthUserResponse where
  id : Int64
  name : String
  email : String
  provider : String

structure AgentPATView where
  id : String
  name : String
  tokenHint : String
  scope : String
  createdAt : Time
  lastUsedAt : Option Time
  expiresAt : Option Time
  revokedAt : Option Time

structure CreatedToken where
  tokenID : String
  name : String
  token : String
  scope : String
  expiresAt : Option Time
  createdAt : Time
  tokenHint : String
  ownerEmail : String

inductive Answer where
  | error (text : String) (status : Nat)
  | message (text : String)
  /-- A user with the session cookie set to a token. -/
  | session (cookie : String) (user : AuthUserResponse)
  | user (user : AuthUserResponse)
  | loggedOut
  | tokens (items : List AgentPATView)
  | tokenCreated (created : CreatedToken)
  | tokenRevoked (tokenID : String)

section SessionTokens

def jwtSecret (e : Environment) : String := trimSpace e.authJWTSecretVar

def tokenSignature (e : Environment) (unsigned : String) : Bytes :=
  e.hmacSHA256 (jwtSecret e).toUTF8.toList unsigned.toUTF8.toList

def signJWT (e : Environment) (claims : UserClaims) : Option String :=
  if jwtSecret e = "" then none
  else
    let unsigned := e.rawURLEncode e.jwtHeader ++ "." ++ e.rawURLEncode (e.marshalClaims claims)
    some (unsigned ++ "." ++ e.rawURLEncode (tokenSignature e unsigned))

def signedClaims (e : Environment) (token : String) : Option UserClaims :=
  if jwtSecret e = "" then none
  else
    match split token '.' with
    | [header, payload, signature] =>
        if e.rawURLDecode signature = some (tokenSignature e (header ++ "." ++ payload)) then
          if (e.rawURLDecode header).bind e.unmarshalAlg = some "HS256" then
            (e.rawURLDecode payload).bind e.unmarshalClaims
          else none
        else none
    | _ => none

def parseAndVerifyJWT (e : Environment) (token : String) : Handler (Option UserClaims) := do
  let some claims := signedClaims e token | return none
  let now ← timeNow
  if claims.expiresAt ≤ unix now then return none
  if claims.userID ≤ 0 ∨ trimSpace claims.email = "" ∨ trimSpace claims.sessionID = "" then return none
  return some claims

/-- `GetClaimsFromRequest`; the cookie is `none` when it is missing. -/
def getClaimsFromRequest (e : Environment) : Option String → Handler (Option UserClaims)
  | none => return none
  | some cookie => parseAndVerifyJWT e (trimSpace cookie)

def sessionClaimsFromRequest (e : Environment) (cookie : Option String) : Handler (Option UserClaims) := do
  let some claims ← getClaimsFromRequest e cookie | return none
  match ← sql (.userSessionLive claims.sessionID claims.userID) with
  | .ok true => return some claims
  | _ => return none

def sessionTTL : Time := 30 * 24 * 60 * minute

def issueSessionAndRespond (e : Environment) (userID : Int64) (name email : String) (provider : Provider) :
    Handler Answer := do
  let sessionID ← newUUID
  let expiresAt := (← timeNow) + sessionTTL
  match ← sql (.insertUserSession sessionID userID expiresAt) with
  | .error _ => return .error "failed to create session" 500
  | .ok _ =>
      let issuedAt ← timeNow
      match signJWT e ⟨userID, email, sessionID, unix issuedAt, unix expiresAt⟩ with
      | none => return .error "AUTH_JWT_SECRET is not set" 500
      | some token => return .session token ⟨userID, name, email, provider.text⟩

end SessionTokens

section EmailedTokens

/-- `hashVerificationToken`. -/
def hashToken (e : Environment) (token : String) : String := hexEncode (e.sha256 token.toUTF8.data.toList)

def TokenKind.logTag : TokenKind → String
  | .verification => "email-verify"
  | .reset => "password-reset"

def createAndSendToken (e : Environment) (kind : TokenKind) (userID : Int64) (email : String) :
    Handler (Except String Unit) := do
  let some token ← randomHex 32 | return .error "failed to read random bytes"
  let expiresAt := (← timeNow) + 30 * minute
  match ← sql (.setToken kind ⟨hashToken e token, expiresAt⟩ userID) with
  | .error fault => return .error fault.text
  | .ok _ =>
      match ← sendEmail kind.logTag email token with
      | .error fault => return .error fault.text
      | .ok _ => return .ok ()

def createAndSendVerificationToken (e : Environment) (userID : Int64) (email : String) :
    Handler (Except String Unit) := createAndSendToken e .verification userID email

def createAndSendPasswordResetToken (e : Environment) (userID : Int64) (email : String) :
    Handler (Except String Unit) := createAndSendToken e .reset userID email

end EmailedTokens

section Auth

structure RegisterRequest where
  name : String
  email : String
  password : String

structure LoginRequest where
  email : String
  password : String

structure GoogleLoginRequest where
  credential : String

structure VerifyEmailRequest where
  token : String

structure EmailRequest where
  email : String

structure ResetPasswordRequest where
  token : String
  newPassword : String

def onlyPost : Answer := .error "Only POST method is allowed" 405

def invalidBody : Answer := .error "Invalid request body" 400

def normalEmail (e : Environment) (email : String) : String := toLower e.lowerRune (trimSpace email)

/-- `strings.Contains(strings.ToLower(err.Error()), "duplicate")`. -/
def isDuplicate (e : Environment) (fault : Fault) : Bool :=
  containsText (toLower e.lowerRune fault.text).toUTF8.toList "duplicate"

def registrationRejects (name email password : String) : Option String :=
  if name = "" ∨ email = "" ∨ password = "" then some "name, email, password are required"
  else if password.utf8ByteSize < 8 then some "password must be at least 8 characters"
  else if email.utf8ByteSize > 254 ∨ !email.toList.contains '@' then some "email is invalid"
  else none

def register (e : Environment) (r : HttpRequest RegisterRequest) : Handler Answer := do
  if r.method ≠ .post then return onlyPost
  let some req := r.body | return invalidBody
  let name := trimSpace req.name
  let email := normalEmail e req.email
  match registrationRejects name email req.password with
  | some text => return .error text 400
  | none =>
      let some hash ← bcryptGenerate req.password | return .error "Failed to hash password" 500
      match ← sql (.insertPasswordUser name email hash) with
      | .error fault =>
          if isDuplicate e fault then return .error "email already registered" 409
          return .error "Failed to create user" 500
      | .ok userID =>
          match ← createAndSendVerificationToken e userID email with
          | .error _ => return .error "Failed to send verification email" 500
          | .ok _ => return .message "Registration successful. Please verify your email before login."

def login (e : Environment) (r : HttpRequest LoginRequest) : Handler Answer := do
  if r.method ≠ .post then return onlyPost
  let some req := r.body | return invalidBody
  let email := normalEmail e req.email
  if email = "" ∨ req.password = "" then return .error "email and password are required" 400
  match ← sql (.selectUserByEmail email) with
  | .ok (some row) =>
      let passwordHash := row.passwordHash.getD ""
      if row.authProvider ≠ .password ∨ trimSpace passwordHash = "" then
        return .error "This account uses Google login" 401
      if !e.bcryptMatches passwordHash req.password then return .error "invalid credentials" 401
      if !row.emailVerified then return .error "EMAIL_NOT_VERIFIED" 403
      issueSessionAndRespond e row.id row.name email row.authProvider
  | _ => return .error "invalid credentials" 401

def googleIdentity (e : Environment) : GoogleReply → Except String (String × String)
  | .unavailable => .error "google verification unavailable"
  | .refused => .error "invalid google credential"
  | .undecodable => .error "invalid google response"
  | .payload payload =>
      let expectedClientID := trimSpace e.googleClientIDVar
      if expectedClientID ≠ "" ∧ payload.aud ≠ expectedClientID then
        .error "google credential audience mismatch"
      else
        let email := normalEmail e payload.email
        if email = "" ∨ payload.emailVerified ≠ "true" then .error "google email is not verified"
        else
          let name := trimSpace payload.name
          .ok (email, if name = "" then email else name)

def googleLogin (e : Environment) (r : HttpRequest GoogleLoginRequest) : Handler Answer := do
  if r.method ≠ .post then return onlyPost
  let some req := r.body | return invalidBody
  let credential := trimSpace req.credential
  if credential = "" then return .error "credential is required" 400
  match googleIdentity e (← googleTokenInfo credential) with
  | .error text => return .error text 401
  | .ok (email, name) =>
      match ← sql (.selectUserByEmail email) with
      | .error _ => return .error "Failed to query user" 500
      | .ok none =>
          match ← sql (.insertGoogleUser name email) with
          | .error _ => return .error "Failed to create user" 500
          | .ok userID => issueSessionAndRespond e userID name email .google
      | .ok (some row) =>
          -- The account is marked verified before its provider is looked at.
          let _ ← sql (.refreshGoogleUser name row.id)
          if row.authProvider = .password then
            return .error "This email is already registered with password login" 409
          issueSessionAndRespond e row.id name email row.authProvider

def verifyEmail (e : Environment) (r : HttpRequest VerifyEmailRequest) : Handler Answer := do
  if r.method ≠ .post then return onlyPost
  let some req := r.body | return invalidBody
  let token := trimSpace req.token
  if token = "" then return .error "token is required" 400
  match ← sql (.verifyEmail (hashToken e token)) with
  | .error _ => return .error "verification failed" 500
  | .ok affected =>
      if affected = 0 then return .error "invalid or expired token" 400
      return .message "Email verified successfully. You can now login."

def verificationSent : Answer := .message "If the email exists, a verification message has been sent."

def resendVerification (e : Environment) (r : HttpRequest EmailRequest) : Handler Answer := do
  if r.method ≠ .post then return onlyPost
  let some req := r.body | return invalidBody
  let email := normalEmail e req.email
  if email = "" then return verificationSent
  match ← sql (.selectUserByEmail email) with
  | .ok (some row) =>
      if row.emailVerified ∨ row.authProvider ≠ .password then return verificationSent
      match ← createAndSendVerificationToken e row.id email with
      | .error _ => return .error "Failed to send verification email" 500
      | .ok _ => return verificationSent
  | _ => return verificationSent

def resetSent : Answer := .message "If the email exists, a reset link has been sent."

def forgotPassword (e : Environment) (r : HttpRequest EmailRequest) : Handler Answer := do
  if r.method ≠ .post then return onlyPost
  let some req := r.body | return invalidBody
  let email := normalEmail e req.email
  if email = "" then return resetSent
  match ← sql (.selectUserByEmail email) with
  | .ok (some row) =>
      if row.authProvider ≠ .password then return resetSent
      let _ ← createAndSendPasswordResetToken e row.id email
      return resetSent
  | _ => return resetSent

def resetPassword (e : Environment) (r : HttpRequest ResetPasswordRequest) : Handler Answer := do
  if r.method ≠ .post then return onlyPost
  let some req := r.body | return invalidBody
  let token := trimSpace req.token
  if token = "" ∨ req.newPassword.utf8ByteSize < 8 then
    return .error "token and valid newPassword are required" 400
  let some newHash ← bcryptGenerate req.newPassword | return .error "Failed to hash password" 500
  match ← sql (.resetPassword newHash (hashToken e token)) with
  | .error _ => return .error "reset failed" 500
  | .ok affected =>
      if affected = 0 then return .error "invalid or expired token" 400
      return .message "Password reset successful. You can now login."

/-- `Me`, once the route has found the claims. -/
def me (claims : Option UserClaims) (isGet : Bool) : Handler Answer := do
  if !isGet then return .error "Only GET method is allowed" 405
  let some claims := claims | return .error "Unauthorized" 401
  match ← sql (.selectUser claims.userID) with
  | .ok (some row) => return .user ⟨row.id, row.name, row.email, row.authProvider.text⟩
  | _ => return .error "Unauthorized" 401

def revokeSession (sessionID : String) : Handler Unit := do
  if trimSpace sessionID = "" then return
  let _ ← sql (.revokeUserSession sessionID)

def logout (e : Environment) (method : Method) (cookie : Option String) : Handler Answer := do
  if method ≠ .post then return onlyPost
  match ← getClaimsFromRequest e cookie with
  | none => return .loggedOut
  | some claims =>
      revokeSession claims.sessionID
      return .loggedOut

end Auth

section AccessTokens

structure AgentPATCreateRequest where
  name : String
  expiresInDays : Int64

structure AgentPATRevokeRequest where
  tokenID : String

def unauthorized : Answer := .error "Unauthorized" 401

def TokenRow.view (row : TokenRow) : AgentPATView :=
  { id := row.id, name := row.tokenName, tokenHint := row.tokenPrefix, scope := row.scope
    createdAt := row.createdAt, lastUsedAt := row.lastUsedAt, expiresAt := row.expiresAt
    revokedAt := row.revokedAt }

def listAgentPATs (claims : UserClaims) : Handler Answer := do
  match ← sql (.listTokens claims.userID) with
  | .error _ => return .error "Failed to list agent PATs" 500
  | .ok rows => return .tokens (rows.map TokenRow.view)

def day : Time := 24 * 60 * minute

def tokenHint (token : String) : String :=
  if token.utf8ByteSize > 18 then String.ofList (token.toList.take 18) ++ "..." else token

def tokenExpiry (expiresInDays : Int64) : Handler (Option Time) := do
  if expiresInDays ≤ 0 then return none
  let now ← timeNow
  return some (now + expiresInDays.toInt * day)

def createAgentPAT (e : Environment) (claims : UserClaims) (body : Option AgentPATCreateRequest) :
    Handler Answer := do
  let some req := body | return invalidBody
  let name := trimSpace req.name
  if name = "" then return .error "name is required" 400
  if req.expiresInDays < 0 ∨ req.expiresInDays > 365 then
    return .error "expiresInDays must be between 0 and 365" 400
  let some secret ← randomHex 24 | return .error "Failed to generate PAT" 500
  let token := "pkt_pat_" ++ secret
  let tokenID ← newUUID
  let expiresAt ← tokenExpiry req.expiresInDays
  match ← sql (.insertToken ⟨tokenID, claims.userID, name, tokenHint token, hashToken e token, expiresAt⟩) with
  | .error _ => return .error "Failed to create PAT" 500
  | .ok _ =>
      let createdAt ← timeNow
      return .tokenCreated ⟨tokenID, name, token, "agent:runtime", expiresAt, createdAt, tokenHint token,
        claims.email⟩

def agentPATsRoot (e : Environment) (claims : UserClaims) (r : HttpRequest AgentPATCreateRequest) :
    Handler Answer :=
  match r.method with
  | .get => listAgentPATs claims
  | .post => createAgentPAT e claims r.body
  | .other => return .error "Method not allowed" 405

def revokeAgentPAT (claims : UserClaims) (r : HttpRequest AgentPATRevokeRequest) : Handler Answer := do
  if r.method ≠ .post then return .error "Method not allowed" 405
  let some req := r.body | return invalidBody
  let tokenID := trimSpace req.tokenID
  if tokenID = "" then return .error "tokenId is required" 400
  match ← sql (.revokeToken tokenID claims.userID) with
  | .error _ => return .error "Failed to revoke PAT" 500
  | .ok _ => return .tokenRevoked tokenID

/-- `RequireSessionAuth`. -/
def requireSessionAuth (e : Environment) (cookie : Option String) (next : UserClaims → Handler Answer) :
    Handler Answer := do
  match ← sessionClaimsFromRequest e cookie with
  | none => return unauthorized
  | some claims => next claims

structure PersonalAccessTokenAuth where
  tokenID : String
  claims : UserClaims
  scope : String

def personalAccessTokenAuthFromRaw (e : Environment) (raw : String) :
    Handler (Option PersonalAccessTokenAuth) := do
  let raw := trimSpace raw
  if !hasPrefix raw "pkt_pat_" then return none
  match ← sql (.selectTokenOwner (hashToken e raw)) with
  | .ok (some owner) =>
      let now ← timeNow
      let _ ← sql (.touchToken owner.tokenID)
      return some ⟨owner.tokenID, ⟨owner.userID, owner.email, "pat:" ++ owner.tokenID, unix now,
        unix now + 3600⟩, owner.scope⟩
  | _ => return none

end AccessTokens

inductive Request where
  | register (r : HttpRequest RegisterRequest)
  | login (r : HttpRequest LoginRequest)
  | googleLogin (r : HttpRequest GoogleLoginRequest)
  | verifyEmail (r : HttpRequest VerifyEmailRequest)
  | resendVerification (r : HttpRequest EmailRequest)
  | forgotPassword (r : HttpRequest EmailRequest)
  | resetPassword (r : HttpRequest ResetPasswordRequest)
  | logout (method : Method) (cookie : Option String)
  | pats (cookie : Option String) (r : HttpRequest AgentPATCreateRequest)
  | revokePAT (cookie : Option String) (r : HttpRequest AgentPATRevokeRequest)

def handler (e : Environment) : Request → Handler Answer
  | .register r => register e r
  | .login r => login e r
  | .googleLogin r => googleLogin e r
  | .verifyEmail r => verifyEmail e r
  | .resendVerification r => resendVerification e r
  | .forgotPassword r => forgotPassword e r
  | .resetPassword r => resetPassword e r
  | .logout method cookie => logout e method cookie
  | .pats cookie r => requireSessionAuth e cookie fun claims => agentPATsRoot e claims r
  | .revokePAT cookie r => requireSessionAuth e cookie fun claims => revokeAgentPAT claims r

section Execution

/-- What the outside decides at a step: whether it fails, the random text drawn (a UUID,
hex digits or a bcrypt hash) and what Google answers. -/
structure Choice where
  fault : Option Fault
  text : Option String
  google : GoogleReply

def UserRow.stored (row : UserRow) : TokenKind → Option StoredToken
  | .verification => row.verification
  | .reset => row.reset

def UserRow.store (row : UserRow) (kind : TokenKind) (token : Option StoredToken) : UserRow :=
  match kind with
  | .verification => { row with verification := token }
  | .reset => { row with reset := token }

/-- The row's token of the kind has this hash and `expires_at > NOW()`. -/
def UserRow.holds (row : UserRow) (kind : TokenKind) (hash : String) (now : Time) : Bool :=
  (row.stored kind).any fun token => token.hash = hash && now < token.expiresAt

/-- The WHERE clause of `VerifyEmail`. -/
def UserRow.verifiable (row : UserRow) (hash : String) (now : Time) : Bool :=
  row.holds .verification hash now && !row.emailVerified

/-- The WHERE clause of `ResetPassword`. -/
def UserRow.resettable (row : UserRow) (hash : String) (now : Time) : Bool :=
  row.holds .reset hash now && row.authProvider = .password

def UserRow.refresh (row : UserRow) (name : String) : UserRow := { row with name := name, emailVerified := true }

def UserRow.verify (row : UserRow) : UserRow := { row with verification := none, emailVerified := true }

def UserRow.setPassword (row : UserRow) (passwordHash : String) : UserRow :=
  { row with reset := none, passwordHash := some passwordHash }

def World.updateUsers (w : World) (selected : UserRow → Bool) (set : UserRow → UserRow) : World :=
  { w with users := updateWhere selected set w.users }

def userIDsExhausted : Fault :=
  ⟨"ERROR: nextval: reached maximum value of sequence \"users_id_seq\" (SQLSTATE 2200H)"⟩

def World.newID (w : World) : Int64 := Int64.ofNat w.nextUserID

def World.addUser (w : World) (name email : String) (passwordHash : Option String) (provider : Provider)
    (verified : Bool) : World :=
  { w with users := w.users ++ [⟨w.newID, name, email, passwordHash, provider, verified, none, none⟩]
           nextUserID := w.nextUserID + 1 }

def World.insertUser (w : World) (name email : String) (passwordHash : Option String) (provider : Provider)
    (verified : Bool) : Except Fault (Int64 × World) :=
  if w.users.any (·.email = email) then .error (uniqueViolation "users_email_key")
  else if w.nextUserID < 2 ^ 63 then .ok (w.newID, w.addUser name email passwordHash provider verified)
  else .error userIDsExhausted

def NewToken.row (token : NewToken) (now : Time) : TokenRow :=
  { id := token.id, userID := token.userID, tokenName := token.tokenName, tokenPrefix := token.tokenPrefix
    tokenHash := token.tokenHash, scope := "agent:runtime", createdAt := now, lastUsedAt := none
    expiresAt := token.expiresAt, revokedAt := none }

/-- `revoked_at IS NULL AND (expires_at IS NULL OR expires_at > NOW())`. -/
def TokenRow.live (row : TokenRow) (now : Time) : Bool :=
  row.revokedAt.isNone && row.expiresAt.all fun expiresAt => now < expiresAt

/-- The join with `users`; a token hash is unique. -/
def tokenOwner (w : World) (tokenHash : String) : Option TokenOwner :=
  match w.tokens.find? fun row => row.tokenHash = tokenHash && row.live w.now with
  | none => none
  | some row =>
      (w.users.find? (·.id = row.userID)).map fun user => ⟨row.id, user.id, user.email, row.scope⟩

def revokeSessions (id : String) (now : Time) (sessions : List UserSessionRow) : List UserSessionRow :=
  updateWhere (fun row => row.id = id && row.revokedAt.isNone)
    (fun row => { row with revokedAt := some now }) sessions

def touchTokens (id : String) (now : Time) (tokens : List TokenRow) : List TokenRow :=
  updateWhere (·.id = id) (fun row => { row with lastUsedAt := some now }) tokens

def revokeTokens (id : String) (userID : Int64) (now : Time) (tokens : List TokenRow) : List TokenRow :=
  updateWhere (fun row => row.id = id && (row.userID = userID && row.revokedAt.isNone))
    (fun row => { row with revokedAt := some now }) tokens

def runSql (e : Environment) : (statement : Sql) → World → Except Fault (statement.Result × World)
  | .insertPasswordUser name email passwordHash, w =>
      w.insertUser name email (some passwordHash) .password false
  | .insertGoogleUser name email, w => w.insertUser name email none .google true
  | .selectUserByEmail email, w => .ok (w.users.find? (·.email = email), w)
  | .selectUser id, w => .ok (w.users.find? (·.id = id), w)
  | .refreshGoogleUser name id, w => .ok ((), w.updateUsers (·.id = id) (·.refresh name))
  | .setToken kind token id, w => .ok ((), w.updateUsers (·.id = id) (·.store kind (some token)))
  | .verifyEmail hash, w =>
      .ok (w.users.countP (·.verifiable hash w.now), w.updateUsers (·.verifiable hash w.now) (·.verify))
  | .resetPassword passwordHash hash, w =>
      .ok (w.users.countP (·.resettable hash w.now),
        w.updateUsers (·.resettable hash w.now) (·.setPassword passwordHash))
  | .insertUserSession id userID expiresAt, w =>
      if w.sessions.any (·.id = id) then .error (uniqueViolation "user_sessions_pkey")
      else if w.users.any (·.id = userID) then
        .ok ((), { w with sessions := w.sessions ++ [⟨id, userID, expiresAt, none⟩] })
      else .error (foreignKeyViolation "user_sessions_user_id_fkey")
  | .userSessionLive id userID, w =>
      .ok (w.sessions.any fun row => row.id = id && (row.userID = userID &&
        (row.revokedAt.isNone && w.now < row.expiresAt)), w)
  | .revokeUserSession id, w =>
      .ok ((), { w with sessions := revokeSessions id w.now w.sessions })
  | .insertToken token, w =>
      if w.tokens.any (·.id = token.id) then .error (uniqueViolation "agent_personal_access_tokens_pkey")
      else if w.tokens.any (·.tokenHash = token.tokenHash) then
        .error (uniqueViolation "agent_personal_access_tokens_token_hash_key")
      else if w.users.any (·.id = token.userID) then
        .ok ((), { w with tokens := w.tokens ++ [token.row w.now] })
      else .error (foreignKeyViolation "agent_personal_access_tokens_user_id_fkey")
  -- `ORDER BY created_at DESC`
  | .listTokens userID, w =>
      .ok ((w.tokens.filter (·.userID = userID)).mergeSort fun a b => decide (b.createdAt ≤ a.createdAt), w)
  | .selectTokenOwner tokenHash, w => .ok (tokenOwner w tokenHash, w)
  | .touchToken id, w =>
      .ok ((), { w with tokens := touchTokens id w.now w.tokens })
  | .revokeToken id userID, w =>
      match e.uuidText id with
      | none => .error (invalidInput "uuid")
      | some id =>
          .ok ((), { w with tokens := revokeTokens id userID w.now w.tokens })

def isHex (c : Char) : Bool := c.isDigit || ('a' ≤ c && c ≤ 'f')

def exec (e : Environment) (choice : Choice) : (op : Op) → World → Option (Reply op × World)
  | .sql statement, w => some <|
      match choice.fault, runSql e statement w with
      | some fault, _ => (.error fault, w)
      | none, .error fault => (.error fault, w)
      | none, .ok (value, after) => (.ok value, after)
  | .newUUID, w =>
      match choice.text with
      | none => none
      | some uuid =>
          if uuid ∉ w.minted ∧ e.uuidText uuid = some uuid then
            some (uuid, { w with minted := uuid :: w.minted })
          else none
  | .randomHex size, w =>
      match choice.text with
      | none => some (none, w)
      | some text =>
          if text ∉ w.drawn ∧ text.length = 2 * size ∧ text.toList.all isHex = true then
            some (some text, { w with drawn := text :: w.drawn })
          else none
  | .now, w => some (w.now, w)
  | .bcryptGenerate password, w =>
      if choice.text.all fun hash => e.bcryptMatches hash password then some (choice.text, w) else none
  | .googleTokenInfo _, w => some (choice.google, w)
  | .sendEmail _ _ _, w =>
      match choice.fault with
      | some fault => some (.error fault, w)
      | none => some (.ok (), w)

def occur (elapsed : Nat) (w : World) : Option World := some { w with now := w.now + elapsed }

def machine (e : Environment) : Machine Reply World Choice Nat Request Answer where
  exec := exec e
  occur := occur
  handler := handler e

end Execution

abbrev Service := Config Reply World Request Answer
abbrev ServiceLabel := Label Choice Nat Request
abbrev ServiceThread := Thread Reply Request Answer

end Payknot.Accounts
