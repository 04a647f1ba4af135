import Payknot.PaymentSessions

/-! `events.go`: creating, updating and deleting events. Update and delete ask for
paid deposits in a statement of their own before they write. -/
namespace Payknot
open GoText Interleaving

structure CreateEventRequest where
  title : String
  description : String
  eventImageURL : String
  eventDate : String
  checkoutExpiresAt : String
  location : String
  organizerName : String
  merchantWallet : String
  amountUSDC : Int64
  eventSource : String
  sourceURL : String
  participantFormSchema : List ParticipantField
  paymentMethods : PaymentMethods

def normalizePaymentMethods (methods : PaymentMethods) : PaymentMethods :=
  if !methods.wallet ∧ !methods.qr then ⟨true, true⟩ else methods

def CreateEventRequest.trimmed (p : Platform) (req : CreateEventRequest) : CreateEventRequest :=
  { req with
    title := trimSpace req.title, description := trimSpace req.description
    eventImageURL := trimSpace req.eventImageURL, location := trimSpace req.location
    organizerName := trimSpace req.organizerName, sourceURL := trimSpace req.sourceURL
    eventSource := toLower p.lowerRune (trimSpace req.eventSource)
    checkoutExpiresAt := trimSpace req.checkoutExpiresAt }

def normalizeAndValidateEventRequest (p : Platform) (request : CreateEventRequest) :
    Except String CreateEventRequest :=
  let trimmed := request.trimmed p
  let req := { trimmed with
    eventSource := if trimmed.eventSource = "" then "custom" else trimmed.eventSource }
  if req.eventSource ≠ "custom" ∧ req.eventSource ≠ "luma" then
    .error "eventSource must be custom or luma"
  else if req.eventSource = "luma" ∧ req.sourceURL = "" then
    .error "sourceUrl is required when eventSource is luma"
  else if req.checkoutExpiresAt = "" then .error "checkoutExpiresAt is required"
  else if (p.parseRFC3339 req.checkoutExpiresAt).isNone then
    .error "checkoutExpiresAt must be RFC3339 format"
  else if req.title = "" ∨ req.merchantWallet = "" ∨ req.amountUSDC ≤ 0 then
    .error "title, merchantWallet, amountUsdc are required"
  else if !isValidWalletAddress p req.merchantWallet then .error "merchantWallet is invalid"
  else .ok { req with
    participantFormSchema := normalizeParticipantFields p req.participantFormSchema
    paymentMethods := normalizePaymentMethods req.paymentMethods }

/-- `strings.ReplaceAll` of one character. -/
def replaceChar (old : Char) (new : List Char) (text : List Char) : List Char :=
  text.flatMap fun c => if c = old then new else [c]

/-- The loop over the runes; the flag is `lastDash`. -/
def slugRunes : List Char → Bool → List Char
  | [], _ => []
  | c :: rest, lastDash =>
      if ('a' ≤ c ∧ c ≤ 'z') ∨ ('0' ≤ c ∧ c ≤ '9') then c :: slugRunes rest false
      else if c = '-' ∧ !lastDash then '-' :: slugRunes rest true
      else slugRunes rest lastDash

def trimDashes (text : List Char) : List Char :=
  (text.dropWhile (· = '-')).rdropWhile (· = '-')

def buildEventSlug (p : Platform) (title : String) : String :=
  let base := (toLower p.lowerRune (trimSpace title)).toList
  let base := replaceChar '\'' [] base
  let base := replaceChar '"' [] base
  let base := replaceChar '&' " and ".toList base
  let base := replaceChar '_' ['-'] base
  let base := replaceChar ' ' ['-'] base
  let slug := trimDashes (slugRunes base false)
  -- Every character left is one byte.
  String.ofList (if slug.length > 64 then trimDashes (slug.take 64) else slug)

def unixNano (now : Time) : Int := now - 62135596800 * second

/-- The loop of `ensureUniqueEventSlug`; `left` of its 50 rounds remain. -/
def tryEventSlugs (base : String) : Nat → String → Handler String
  | 0, _ => do
      let now ← timeNow
      return base ++ "-" ++ toString (unixNano now % 1000000)
  | left + 1, slug => do
      match ← sql (.eventSlugExists slug) with
      | .ok false => return slug
      | _ =>
          let now ← timeNow
          tryEventSlugs base left
            (base ++ "-" ++ toString (unixNano now / second % 100000 + (49 - left : Nat)))

def ensureUniqueEventSlug (base : String) : Handler String := tryEventSlugs base 50 base

def nullTime (t : Time) : Option Time := if t = 0 then none else some t

/-- `AmountUSDC*1_000_000` wraps around like any int64 product. -/
def atomicAmount (amountUSDC : Int64) : Int64 := amountUSDC * 1000000

def CreateEventRequest.columns (req : CreateEventRequest) (eventTime checkoutExpiresAt : Time) :
    EventColumns :=
  { title := req.title, description := req.description, eventImageURL := req.eventImageURL
    eventDate := nullTime eventTime, location := req.location, organizerName := req.organizerName
    merchantWallet := req.merchantWallet, amountUSDC := atomicAmount req.amountUSDC
    eventSource := req.eventSource, sourceURL := req.sourceURL
    participantFormSchema := encodeParticipantFields req.participantFormSchema
    paymentMethods := encodePaymentMethods req.paymentMethods
    checkoutExpiresAt := checkoutExpiresAt }

/-- The two `time.Parse` calls both writers make. -/
def eventTimes (p : Platform) (req : CreateEventRequest) : Except String (Time × Time) :=
  let eventTime := if trimSpace req.eventDate ≠ "" then p.parseRFC3339 req.eventDate else some 0
  match eventTime, p.parseRFC3339 req.checkoutExpiresAt with
  | none, _ => .error "eventDate must be RFC3339 format"
  | some _, none => .error "checkoutExpiresAt must be RFC3339 format"
  | some eventTime, some checkoutExpiresAt => .ok (eventTime, checkoutExpiresAt)

def createEvent (p : Platform) (claims : Option AuthClaims) (r : HttpRequest CreateEventRequest) :
    Handler Answer := do
  if r.method ≠ .post then return httpError "Only POST method is allowed" 405
  let some request := r.body | return httpError "Invalid request body" 400
  match normalizeAndValidateEventRequest p request with
  | .error text => return httpError text 400
  | .ok req =>
      let some claims := claims | return httpError "Unauthorized" 401
      match eventTimes p req with
      | .error text => return httpError text 400
      | .ok (eventTime, checkoutExpiresAt) =>
          let base := buildEventSlug p req.title
          if base = "" then return httpError "invalid title" 400
          let slug ← ensureUniqueEventSlug base
          match ← sql (.insertEvent slug claims.email (req.columns eventTime checkoutExpiresAt)) with
          | .error _ => return httpError "Failed to create event" 500
          | .ok eventID =>
              return .responded 200 (.event
                { eventID := eventID, slug := slug, checkoutURL := "/checkout/" ++ slug
                  eventImageURL := req.eventImageURL, checkoutExpiresAt := req.checkoutExpiresAt
                  amountUSDC := p.formatTwoDecimals req.amountUSDC
                  merchantWallet := req.merchantWallet, eventSource := req.eventSource
                  sourceURL := req.sourceURL, participantFormSchema := req.participantFormSchema
                  paymentMethods := req.paymentMethods })

/-- The `affected == 0` test both writers end with. -/
def affectedAnswer (affected : Nat) : Answer :=
  if affected = 0 then httpError "Event not found or not owned by user" 404
  else .responded 200 .empty

def updateEvent (p : Platform) (body : Option CreateEventRequest) (eventID : Int64)
    (ownerEmail : String) : Handler Answer := do
  let some request := body | return httpError "Invalid request body" 400
  match normalizeAndValidateEventRequest p request with
  | .error text => return httpError text 400
  | .ok req =>
      match ← sql (.hasPaidDeposits eventID) with
      | .error _ => return httpError "Failed to validate event state" 500
      | .ok true =>
          return httpError "event cannot be edited after at least one successful deposit" 409
      | .ok false =>
          match eventTimes p req with
          | .error text => return httpError text 400
          | .ok (eventTime, checkoutExpiresAt) =>
              match ← sql (.updateEvent eventID ownerEmail
                  (req.columns eventTime checkoutExpiresAt)) with
              | .error _ => return httpError "Failed to update event" 500
              | .ok affected => return affectedAnswer affected

def deleteEvent (eventID : Int64) (ownerEmail : String) : Handler Answer := do
  match ← sql (.hasPaidDeposits eventID) with
  | .error _ => return httpError "Failed to validate event state" 500
  | .ok true =>
      return httpError "event cannot be deleted after at least one successful deposit" 409
  | .ok false =>
      match ← sql (.deleteEvent eventID ownerEmail) with
      | .error _ => return httpError "Failed to delete event" 500
      | .ok affected => return affectedAnswer affected

end Payknot
