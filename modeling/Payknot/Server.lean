import Payknot.Embedding
import Payknot.Service
import Payknot.AgentKeys
import Payknot.Accounts
import Payknot.AgentRuntime
import Payknot.RateLimit

/-! The whole server: every route of `main.go` with the middleware around it. The world
puts the stores of the four parts and of the rate limiter under one clock, the core's;
a part's own clock is set before each of its operations. -/
namespace Payknot.Server
open GoText Interleaving

structure ImportLumaResponse where
  title : String
  description : String
  descriptionHTML : String
  eventDate : String
  location : String
  organizerName : String
  eventImageURL : String
  warning : String

structure Environment where
  platform : Platform
  keys : AgentKeys.Environment
  accounts : Accounts.Environment
  agents : AgentRuntime.Environment
  /-- `fmt.Sprintf("%.2f", float64(n)/1_000_000)`. -/
  formatAmount : Int64 → String
  /-- PostgreSQL's `@>`. -/
  jsonbContains : Json → Json → Bool
  /-- The host of what `url.Parse` accepts. -/
  urlHost : String → Option String
  /-- `parseLumaHTML`; no result here depends on what it makes of a page. -/
  parseLumaHTML : String → ImportLumaResponse

section Signature

inductive Query where
  | listEvents (ownerEmail : String)
  | listCheckouts (eventID : Int64) (ownerEmail : String)
  | paidReference (slug participantData : String)
  | listAgentKeys

abbrev Query.Result : Query → Type
  | .listEvents _ => List EventRow
  | .listCheckouts _ _ => List CheckoutRow
  | .paidReference _ _ => Option String
  | .listAgentKeys => List AgentKeys.KeyRow

inductive Fetched where
  | unreachable
  | refused
  | unreadable
  | page (body : String)

inductive Op where
  | core (op : Payknot.Op)
  | keys (op : AgentKeys.Op)
  | accounts (op : Accounts.Op)
  | agents (op : AgentRuntime.Op)
  | limiter (op : RateLimit.Op)
  | query (query : Query)
  | fetchPage (url : String)

abbrev Reply : Op → Type
  | .core op => Payknot.Reply op
  | .keys op => AgentKeys.Reply op
  | .accounts op => Accounts.Reply op
  | .agents op => AgentRuntime.Reply op
  | .limiter op => RateLimit.Reply op
  | .query query => Except Fault query.Result
  | .fetchPage _ => Fetched

abbrev Handler := Program Reply

def core {Value : Type} (program : Program Payknot.Reply Value) : Handler Value := program.lift Op.core

def keys {Value : Type} (program : Program AgentKeys.Reply Value) : Handler Value := program.lift Op.keys

def accounts {Value : Type} (program : Program Accounts.Reply Value) : Handler Value := program.lift Op.accounts

def agents {Value : Type} (program : Program AgentRuntime.Reply Value) : Handler Value := program.lift Op.agents

def limiter {Value : Type} (program : Program RateLimit.Reply Value) : Handler Value := program.lift Op.limiter

def query (query : Query) : Handler (Except Fault query.Result) := Program.perform (Op.query query)

def fetchPage (url : String) : Handler Fetched := Program.perform (Op.fetchPage url)

def timeNow : Handler Time := Program.perform (Op.core .now)

end Signature

section Answers

structure EventSummary where
  eventID : Int64
  slug : String
  title : String
  description : String
  eventImageURL : String
  eventDate : Option Time
  checkoutExpiresAt : Time
  location : String
  organizerName : String
  merchantWallet : String
  amountUSDC : String
  eventSource : String
  sourceURL : String
  participantFormSchema : List ParticipantField
  paymentMethods : PaymentMethods
  createdAt : Time

structure EventCheckoutRow where
  id : Nat
  walletAddress : String
  reference : String
  signature : String
  status : String
  paymentMethod : String
  createdAt : Time
  paidAt : Option Time
  participantData : Option Object

structure CheckoutEventResponse where
  slug : String
  title : String
  description : String
  eventImageURL : String
  eventDate : Option Time
  checkoutExpiresAt : Time
  location : String
  organizerName : String
  merchantWallet : String
  amountUSDC : String
  amountRaw : Int64
  network : String
  participantForm : List ParticipantField
  paymentMethodWallet : Bool
  paymentMethodQR : Bool

structure AgentIdentity where
  agentID : String
  scope : String
  issuedAt : Int
  expiresAt : Int
  authMethod : String

inductive Answer where
  | error (text : String) (status : Nat)
  | noContent
  | core (answer : Payknot.Answer)
  | keys (answer : AgentKeys.Answer)
  | accounts (answer : Accounts.Answer)
  | agents (answer : AgentRuntime.Answer)
  | limited (answer : RateLimit.Answer)
  | events (events : List EventSummary)
  | checkouts (checkouts : List EventCheckoutRow)
  | checkoutEvent (event : CheckoutEventResponse)
  | agentKeys (keys : List AgentKeys.KeyRow)
  | imported (event : ImportLumaResponse)
  | agent (identity : AgentIdentity)

def notFound : Answer := .error "404 page not found" 404

def unauthorized : Answer := .error "Unauthorized" 401

/-- Decoding into `PaymentMethods(wallet: true, qr: true)`: a member of another type is skipped. -/
def scanPaymentMethods : Json → PaymentMethods
  | .obj members => members.foldl scanMember ⟨true, true⟩
  | _ => ⟨true, true⟩
where
  scanMember (methods : PaymentMethods) : String × Json → PaymentMethods
    | (key, .bool flag) =>
        if foldsTo key "wallet" then { methods with wallet := flag }
        else if foldsTo key "qr" then { methods with qr := flag }
        else methods
    | _ => methods

def eventSummary (e : Environment) (row : EventRow) : EventSummary :=
  { eventID := row.id, slug := row.slug, title := row.columns.title, description := row.columns.description
    eventImageURL := row.columns.eventImageURL, eventDate := row.columns.eventDate
    checkoutExpiresAt := row.columns.checkoutExpiresAt, location := row.columns.location
    organizerName := row.columns.organizerName, merchantWallet := row.columns.merchantWallet
    amountUSDC := e.formatAmount row.columns.amountUSDC, eventSource := row.columns.eventSource
    sourceURL := row.columns.sourceURL
    participantFormSchema := decodeParticipantFields e.platform row.columns.participantFormSchema
    paymentMethods := scanPaymentMethods row.columns.paymentMethods, createdAt := row.createdAt }

def eventCheckoutRow (row : CheckoutRow) : EventCheckoutRow :=
  { id := row.id, walletAddress := row.walletAddress, reference := row.reference
    signature := row.signature.getD "", status := row.status.text, paymentMethod := row.paymentMethod
    createdAt := row.createdAt, paidAt := row.paidAt
    participantData := match row.participantData with
      | .obj members => some members
      | _ => none }

def checkoutEventResponse (e : Environment) (row : EventRow) : CheckoutEventResponse :=
  let methods := decodePaymentMethods row.columns.paymentMethods
  { slug := row.slug, title := row.columns.title, description := row.columns.description
    eventImageURL := row.columns.eventImageURL, eventDate := row.columns.eventDate
    checkoutExpiresAt := row.columns.checkoutExpiresAt, location := row.columns.location
    organizerName := row.columns.organizerName, merchantWallet := row.columns.merchantWallet
    amountUSDC := e.formatAmount row.columns.amountUSDC, amountRaw := row.columns.amountUSDC
    network := networkFromMint
    participantForm := decodeParticipantFields e.platform row.columns.participantFormSchema
    paymentMethodWallet := methods.wallet, paymentMethodQR := methods.qr }

end Answers

section Authentication

/-- What the middleware reads of a request; the method, the path and the body are among what
an agent signs. -/
structure Credentials where
  cookie : Option String
  authorization : String
  agentID : String
  signed : SignedRequest

abbrev Credentials.method (c : Credentials) : String := c.signed.method

abbrev Credentials.path (c : Credentials) : String := c.signed.path

def agentClaims (claims : AgentKeys.AgentAuthClaims) : Accounts.UserClaims :=
  ⟨claims.userID, claims.email, claims.sessionID, claims.issuedAt, claims.expiresAt⟩

/-- The claims under which `RequireAuth` lets a request pass. -/
def authenticate (e : Environment) (c : Credentials) : Handler (Option Accounts.UserClaims) := do
  match ← accounts (Accounts.sessionClaimsFromRequest e.accounts c.cookie) with
  | some claims => return some claims
  | none =>
      match ← accounts (Accounts.personalAccessTokenAuthFromRaw e.accounts
          (AgentRuntime.bearerToken c.authorization)) with
      | some pat => return some pat.claims
      | none => return none

/-- The claims under which `RequireAuthOrAgentKey` lets a request pass. -/
def authenticateOrAgent (e : Environment) (c : Credentials) : Handler (Option Accounts.UserClaims) := do
  match ← keys (AgentKeys.verifyAgentSignature e.keys c.agentID c.signed) with
  | some claims => return some (agentClaims claims)
  | none => authenticate e c

def requireAuthOrAgentKey (e : Environment) (c : Credentials) (next : Accounts.UserClaims → Handler Answer) :
    Handler Answer := do
  match ← authenticateOrAgent e c with
  | none => return unauthorized
  | some claims => next claims

def requireSessionAuth (e : Environment) (cookie : Option String)
    (next : Accounts.UserClaims → Handler Answer) : Handler Answer := do
  match ← accounts (Accounts.sessionClaimsFromRequest e.accounts cookie) with
  | none => return unauthorized
  | some claims => next claims

end Authentication

section Events

def listEvents (e : Environment) (claims : Accounts.UserClaims) : Handler Answer := do
  match ← query (.listEvents claims.email) with
  | .error _ => return .error "Failed to list events" 500
  | .ok rows => return .events (rows.map (eventSummary e))

def eventsRoot (e : Environment) (c : Credentials) (body : Option CreateEventRequest)
    (claims : Accounts.UserClaims) : Handler Answer :=
  if c.method = "POST" then do
    return .core (← core (createEvent e.platform (some ⟨claims.email⟩) ⟨.post, body⟩))
  else if c.method = "GET" then listEvents e claims
  else return .error "Method not allowed" 405

/-- `strings.Trim(path, "/")`. -/
def trimSlashes (path : String) : String :=
  String.ofList ((path.toList.dropWhile (· = '/')).rdropWhile (· = '/'))

def listCheckouts (eventID : Int64) (claims : Accounts.UserClaims) : Handler Answer := do
  match ← query (.listCheckouts eventID claims.email) with
  | .error _ => return .error "Failed to list checkouts" 500
  | .ok rows => return .checkouts (rows.map eventCheckoutRow)

/-- What a path below `/api/events/` asks for. -/
inductive EventRoute where
  | missing
  | invalid
  | event (eventID : Int64)
  | inviteCodes
  | checkouts (eventID : Int64)

def eventRoute (path : String) : EventRoute :=
  match split (trimSlashes (trimPrefix path "/api/events/")) '/' with
  | [] => .missing
  | first :: rest =>
      if first = "" then .missing
      else
        match parseInt first, rest with
        | .error _, _ => .invalid
        | .ok eventID, [] => .event eventID
        | .ok eventID, second :: _ =>
            if second = "invite-codes" then .inviteCodes
            else if second = "checkouts" then .checkouts eventID
            else .missing

def eventsSubroutes (e : Environment) (c : Credentials) (body : Option CreateEventRequest)
    (claims : Accounts.UserClaims) : Handler Answer :=
  match eventRoute c.path with
  | .missing => return notFound
  | .invalid => return .error "invalid event id" 400
  | .event eventID =>
      if c.method = "PUT" then do
        return .core (← core (updateEvent e.platform body eventID claims.email))
      else if c.method = "DELETE" then do
        return .core (← core (deleteEvent eventID claims.email))
      else return .error "Method not allowed" 405
  | .inviteCodes => return .error "Invite codes are removed from this product version" 410
  | .checkouts eventID =>
      if c.method ≠ "GET" then return .error "Only GET method is allowed" 405
      else listCheckouts eventID claims

def importLumaEvent (e : Environment) (c : Credentials) (url : Option String) : Handler Answer := do
  if c.method ≠ "POST" then return .error "Only POST method is allowed" 405
  let some url := url | return .error "Invalid request body" 400
  let rawURL := trimSpace url
  if rawURL = "" then return .error "url is required" 400
  match e.urlHost rawURL with
  | none => return .error "invalid url" 400
  | some host =>
      if host = "" then return .error "invalid url" 400
      if !containsText (toLower e.platform.lowerRune host).toUTF8.toList "luma.com" then
        return .error "only luma.com urls are supported" 400
      match ← fetchPage rawURL with
      | .unreachable => return .error "unable to fetch event page" 502
      | .refused =>
          return .error "unable to access event page (if private, please set event to public)" 400
      | .unreadable => return .error "failed to read event page" 502
      | .page body =>
          let out := e.parseLumaHTML body
          if trimSpace out.title = "" then
            return .error "could not parse public event data (if private, please set event to public)" 400
          return .imported out

end Events

section Checkouts

abbrev CheckoutRequest := { r : Payknot.Request // r.editsEvents = false }

def limitedPath : Payknot.Request → Option String
  | .recheck _ => some "/api/checkout/recheck"
  | .manualVerify _ => some "/api/checkout/manual-verify"
  | .detect _ => some "/api/checkout/detect"
  | _ => none

def withoutClaims : Payknot.Request → Payknot.Request
  | .v1Create r => .v1Create { r with claims := none }
  | r => r

def checkout (e : Environment) (remoteAddr : String) (r : CheckoutRequest) : Handler Answer := do
  let serve : Handler Answer := do return .core (← core (handler e.platform (withoutClaims r.val)))
  match limitedPath r.val with
  | none => serve
  | some path =>
      match ← limiter (RateLimit.rateLimit ⟨path, remoteAddr⟩) with
      | .forwarded => serve
      | refused => return .limited refused

structure ParticipantStatusRequest where
  slug : String
  participantData : Option Object

def getParticipantStatus (e : Environment) (r : HttpRequest ParticipantStatusRequest) : Handler Answer := do
  if r.method ≠ .post then return .error "Only POST method is allowed" 405
  let some req := r.body | return .error "Invalid request body" 400
  let slug := trimSpace req.slug
  if slug = "" then return .error "slug is required" 400
  if (req.participantData.getD []).isEmpty then return .noContent
  match ← query (.paidReference slug (e.platform.marshalMap req.participantData)) with
  | .ok (some reference) =>
      match ← core (getCheckoutStatusByReference reference) with
      | none => return .noContent
      | some response => return .core (.responded 200 (.checkoutStatus response))
  | _ => return .noContent

def getCheckoutStatus (e : Environment) (method : Method) (reference : String) : Handler Answer := do
  if method ≠ .get then return .error "Only GET method is allowed" 405
  let reference := trimSpace reference
  if !isValidReference e.platform reference then return .error "invalid reference" 400
  match ← core (getCheckoutStatusByReference reference) with
  | none => return .error "Checkout not found" 404
  | some response => return .core (.responded 200 (.checkoutStatus response))

def getCheckoutBySlug (e : Environment) (method : Method) (path : String) : Handler Answer := do
  if method ≠ .get then return .error "Only GET method is allowed" 405
  let slug := trimSlashes (trimPrefix path "/api/checkout/")
  if slug = "" then return notFound
  match ← core (sql (.selectActiveEventBySlug slug)) with
  | .ok (some event) => return .checkoutEvent (checkoutEventResponse e event)
  | _ => return .error "event not found" 404

end Checkouts

section Keys

def agentKeysRoot (e : Environment) (method : Method) (body : Option AgentKeys.AgentKeyUpsertRequest)
    (claims : Accounts.UserClaims) : Handler Answer :=
  match method with
  | .get => do
      match ← query .listAgentKeys with
      | .error _ => return .error "Failed to list agent keys" 500
      | .ok rows => return .agentKeys rows
  | .post => do return .keys (← keys (AgentKeys.upsertAgentKey e.keys (some ⟨claims.email⟩) body))
  | .other => return .error "Method not allowed" 405

end Keys

section Runtime

structure AgentPATTokenRequest where
  token : String
  sessionPubkey : String

def isSessionPubkey (e : Environment) (sessionPubkey : String) : Bool :=
  (e.agents.base58Decode sessionPubkey).any (·.length = 32)

def agentAuthPAT (e : Environment) (method : String) (body : Option AgentPATTokenRequest) : Handler Answer := do
  if method ≠ "POST" then return .error "Method not allowed" 405
  let some req := body | return .error "invalid request body" 400
  let sessionPubkey := trimSpace req.sessionPubkey
  match ← accounts (Accounts.personalAccessTokenAuthFromRaw e.accounts (trimSpace req.token)) with
  | none => return .error "invalid PAT" 401
  | some pat =>
      if sessionPubkey ≠ "" then
        if !isSessionPubkey e sessionPubkey then return .error "invalid session_pubkey" 400
        return .agents (← agents (AgentRuntime.writeAgentAuthResponse e.agents sessionPubkey "agent:settlement"))
      return .agents (← agents
        (AgentRuntime.writeAgentAuthResponse e.agents ("pat:" ++ pat.tokenID) "agent:runtime"))

def agentRuntimeClaimsFromRequest (e : Environment) (authorization : String) :
    Handler (Option AgentRuntime.AgentClaims) := do
  let token := AgentRuntime.bearerToken authorization
  if token = "" then return none
  if hasPrefix token "pkt_pat_" then
    match ← accounts (Accounts.personalAccessTokenAuthFromRaw e.accounts token) with
    | none => return none
    | some pat =>
        let now ← timeNow
        return some ⟨"pat:" ++ pat.tokenID, "pat:" ++ pat.tokenID, unix now, unix now + 3600, pat.scope⟩
  agents (AgentRuntime.jwtBackedAgentClaimsFromRequest e.agents token)

def authMethodForAgent (e : Environment) (agentID : String) : String :=
  if hasPrefix agentID "pat:" then "pat"
  else if (e.agents.base58Decode agentID).isSome then "ed25519_session"
  else "unknown"

/-- `RequireAgentJWT(AgentAuthMe)`. -/
def agentAuthMe (e : Environment) (method authorization : String) : Handler Answer := do
  match ← agentRuntimeClaimsFromRequest e authorization with
  | none => return unauthorized
  | some agent =>
      if method ≠ "GET" then return .error "Method not allowed" 405
      return .agent ⟨agent.agentPubkey, agent.scope, agent.issuedAt, agent.expiresAt,
        authMethodForAgent e agent.agentPubkey⟩

end Runtime

/-- A request to one of the routes, less the routes' names where the request says which. -/
inductive Request where
  | account (r : Accounts.Request)
  | me (c : Credentials)
  | events (c : Credentials) (body : Option CreateEventRequest)
  | eventsSubroutes (c : Credentials) (body : Option CreateEventRequest)
  | importLuma (c : Credentials) (url : Option String)
  | agentKeys (cookie : Option String) (method : Method) (body : Option AgentKeys.AgentKeyUpsertRequest)
  | revokeAgentKey (cookie : Option String) (r : HttpRequest AgentKeys.AgentKeyRevokeRequest)
  | checkout (remoteAddr : String) (r : CheckoutRequest)
  | participantStatus (r : HttpRequest ParticipantStatusRequest)
  | checkoutStatus (method : Method) (reference : String)
  | checkoutBySlug (method : Method) (path : String)
  | agent (r : AgentRuntime.Request)
  | authPAT (method : String) (body : Option AgentPATTokenRequest)
  | authMe (method authorization : String)

def handler (e : Environment) : Request → Handler Answer
  | .account r => do return .accounts (← accounts (Accounts.handler e.accounts r))
  | .me c => requireAuthOrAgentKey e c fun claims => do
      return .accounts (← accounts (Accounts.me (some claims) (c.method = "GET")))
  | .events c body => requireAuthOrAgentKey e c (eventsRoot e c body)
  | .eventsSubroutes c body => requireAuthOrAgentKey e c (eventsSubroutes e c body)
  | .importLuma c url => requireAuthOrAgentKey e c fun _ => importLumaEvent e c url
  | .agentKeys cookie method body => requireSessionAuth e cookie (agentKeysRoot e method body)
  | .revokeAgentKey cookie r => requireSessionAuth e cookie fun _ => do
      return .keys (← keys (AgentKeys.revokeAgentKey r))
  | .checkout remoteAddr r => checkout e remoteAddr r
  | .participantStatus r => getParticipantStatus e r
  | .checkoutStatus method reference => getCheckoutStatus e method reference
  | .checkoutBySlug method path => getCheckoutBySlug e method path
  | .agent r => do return .agents (← agents (AgentRuntime.handler e.agents r))
  | .authPAT method body => agentAuthPAT e method body
  | .authMe method authorization => agentAuthMe e method authorization

section Execution

structure World where
  core : Payknot.World
  keys : AgentKeys.World
  accounts : Accounts.World
  agents : AgentRuntime.World
  limiter : RateLimit.World

def World.now (w : World) : Time := w.core.now

/-- What the outside decides at a step: a failure, a random text, how many rows arrive,
what Google answers and what a page holds. -/
structure Choice where
  fault : Option Fault
  text : Option String
  cut : Option Nat
  google : Accounts.GoogleReply
  fetched : Fetched

def Choice.delivered {Row : Type} (choice : Choice) (rows : List Row) : List Row :=
  match choice.cut with
  | none => rows
  | some n => rows.take n

/-- `ORDER BY` the time, latest first. -/
def latestFirst {Row : Type} (time : Row → Time) (rows : List Row) : List Row :=
  rows.mergeSort fun a b => decide (time b ≤ time a)

def ownedEvents (ownerEmail : String) (events : List EventRow) : List EventRow :=
  events.filter (·.ownerEmail = ownerEmail)

/-- The join of `event_checkouts` with `events` on an event and its owner. -/
def ownedCheckouts (eventID : Int64) (ownerEmail : String) (w : Payknot.World) : List CheckoutRow :=
  w.checkouts.filter fun row => row.eventId = eventID &&
    (ownedEvents ownerEmail w.events).any (·.id = eventID)

/-- `ORDER BY paid_at DESC NULLS LAST, created_at DESC`. -/
def paidLater (a b : CheckoutRow) : Bool :=
  match a.paidAt, b.paidAt with
  | some first, some second => second < first || (first = second && b.createdAt ≤ a.createdAt)
  | some _, none => true
  | none, some _ => false
  | none, none => b.createdAt ≤ a.createdAt

def paidMatches (e : Environment) (slug : String) (data : Json) (w : Payknot.World) : List CheckoutRow :=
  w.checkouts.filter fun row => row.status = .paid &&
    (e.jsonbContains row.participantData data &&
      w.events.any fun event => event.id = row.eventId && event.slug = slug)

def runQuery (e : Environment) (choice : Choice) : (query : Query) → World → Except Fault query.Result
  | .listEvents ownerEmail, w =>
      .ok (choice.delivered (latestFirst (·.createdAt) (ownedEvents ownerEmail w.core.events)))
  | .listCheckouts eventID ownerEmail, w =>
      .ok (choice.delivered
        ((latestFirst (·.createdAt) (ownedCheckouts eventID ownerEmail w.core)).take 500))
  | .paidReference slug participantData, w =>
      match e.platform.jsonb participantData with
      | none => .error (invalidInput "json")
      | some data => .ok (((paidMatches e slug data w.core).mergeSort paidLater).head?.map (·.reference))
  -- Rows are in the order of their creation.
  | .listAgentKeys, w => .ok (choice.delivered w.keys.rows.reverse)

def instant (now : Time) : RateLimit.Instant := (unixNano now).toNat

def exec (e : Environment) (choice : Choice) : (op : Op) → World → Option (Reply op × World)
  | .core op, w =>
      (Payknot.exec e.platform ⟨choice.fault, choice.text.getD ""⟩ op w.core).map
        fun (reply, core) => (reply, { w with core := core })
  | .keys op, w =>
      (AgentKeys.exec ⟨choice.fault, choice.cut⟩ op { w.keys with now := w.now }).map
        fun (reply, keys) => (reply, { w with keys := keys })
  | .accounts op, w =>
      (Accounts.exec e.accounts ⟨choice.fault, choice.text, choice.google⟩ op
          { w.accounts with now := w.now }).map
        fun (reply, accounts) => (reply, { w with accounts := accounts })
  | .agents op, w =>
      (AgentRuntime.exec ⟨choice.fault, choice.text⟩ op { w.agents with now := w.now }).map
        fun (reply, agents) => (reply, { w with agents := agents })
  | .limiter op, w =>
      (RateLimit.exec choice.fault.isSome op { w.limiter with now := instant w.now }).map
        fun (reply, limiter) => (reply, { w with limiter := limiter })
  | .query query, w => some <|
      match choice.fault with
      | some fault => (.error fault, w)
      | none => (runQuery e choice query w, w)
  | .fetchPage _, w => some (choice.fetched, w)

def occur (event : WorldEvent) (w : World) : Option World :=
  (Payknot.occur event w.core).map fun core => { w with core := core }

def machine (e : Environment) : Machine Reply World Choice WorldEvent Request Answer where
  exec := exec e
  occur := occur
  handler := handler e

end Execution

abbrev Service := Config Reply World Request Answer
abbrev ServiceLabel := Label Choice WorldEvent Request
abbrev ServiceThread := Thread Reply Request Answer

end Payknot.Server
