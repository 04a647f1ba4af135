import Payknot.Server
import Payknot.History

/-! What a request to the server has seen when it touches or lists events: the claims its
credentials were accepted under. Everything else that the parts do leaves events alone. -/
namespace Payknot.Server
open GoText Interleaving

variable {e : Environment} {request : Request} {log : Log Reply}

def Request.credentials : Request → Option Credentials
  | .me c | .events c _ | .eventsSubroutes c _ | .importLuma c _ => some c
  | _ => none

/-- From what the request has seen its credentials are accepted under these claims. -/
def Authenticated (e : Environment) (request : Request) (log : Log Reply) (claims : Accounts.UserClaims) : Prop :=
  ∃ c seen, request.credentials = some c ∧ Follows (authenticateOrAgent e c) [] (some claims) seen ∧ seen <:+ log

theorem Authenticated.mono {claims : Accounts.UserClaims} {later : Log Reply}
    (authenticated : Authenticated e request log claims) (grown : log <:+ later) :
    Authenticated e request later claims := by
  obtain ⟨c, seen, from_request, follows, within⟩ := authenticated
  exact ⟨c, seen, from_request, follows, within.trans grown⟩

theorem Authenticated.unique {claims claims' : Accounts.UserClaims}
    (authenticated : Authenticated e request log claims) (authenticated' : Authenticated e request log claims') :
    claims = claims' := by
  obtain ⟨c, seen, from_request, follows, within⟩ := authenticated
  obtain ⟨c', seen', from_request', follows', within'⟩ := authenticated'
  cases from_request.symm.trans from_request'
  exact Option.some.inj (follows.unique follows' within within')

def Request.Asks (request : Request) (method : String) (route : EventRoute) : Prop :=
  ∃ c body, request = .eventsSubroutes c body ∧ c.method = method ∧ eventRoute c.path = route

def Issues (e : Environment) (request : Request) (log : Log Reply) : Op → Prop
  | .core (.sql (.insertEvent _ ownerEmail _)) => (∃ c body, request = .events c body ∧ c.method = "POST") ∧
      ∃ claims, Authenticated e request log claims ∧ claims.email = ownerEmail
  | .core (.sql (.updateEvent id ownerEmail _)) => request.Asks "PUT" (.event id) ∧
      ∃ claims, Authenticated e request log claims ∧ claims.email = ownerEmail
  | .core (.sql (.deleteEvent id ownerEmail)) => request.Asks "DELETE" (.event id) ∧
      ∃ claims, Authenticated e request log claims ∧ claims.email = ownerEmail
  | _ => True

def Ends (e : Environment) (request : Request) (log : Log Reply) : Answer → Prop
  | .events events => ∃ claims rows, Authenticated e request log claims ∧
      log.Saw (.query (.listEvents claims.email)) (.ok rows) ∧ events = rows.map (eventSummary e)
  | .checkouts checkouts => ∃ claims eventID rows, Authenticated e request log claims ∧
      log.Saw (.query (.listCheckouts eventID claims.email)) (.ok rows) ∧ checkouts = rows.map eventCheckoutRow
  | _ => True

section Parts
variable {Value : Type}

theorem along_part {Part : Type} (inject : Part → Op) (outside : ∀ log part, Issues e request log (inject part))
    (program : Program (fun part => Reply (inject part)) Value) (log : Log Reply) :
    (program.lift inject).Along (Issues e request) (fun _ _ => True) log := by
  refine ((Program.along_grows program []).lift inject log).mono ?_ fun _ _ _ => trivial
  rintro after _ ⟨part, _, rfl, _, _⟩
  exact outside after part

theorem along_accounts (program : Program Accounts.Reply Value) (log : Log Reply) :
    (accounts program).Along (Issues e request) (fun _ _ => True) log :=
  along_part Op.accounts (fun _ _ => trivial) program log

theorem along_keys (program : Program AgentKeys.Reply Value) (log : Log Reply) :
    (keys program).Along (Issues e request) (fun _ _ => True) log :=
  along_part Op.keys (fun _ _ => trivial) program log

theorem along_agents (program : Program AgentRuntime.Reply Value) (log : Log Reply) :
    (agents program).Along (Issues e request) (fun _ _ => True) log :=
  along_part Op.agents (fun _ _ => trivial) program log

theorem along_limiter (program : Program RateLimit.Reply Value) (log : Log Reply) :
    (limiter program).Along (Issues e request) (fun _ _ => True) log :=
  along_part Op.limiter (fun _ _ => trivial) program log

-- A core request writes events as one of the three requests of the events API.
theorem along_core {p : Platform} {r : Payknot.Request} {program : Payknot.Handler Value}
    (careful : program.Along (Payknot.Issues p r) (fun _ _ => True) [])
    (creates : ∀ claims body, r = .createEvent (some claims) body →
      (∃ c body, request = .events c body ∧ c.method = "POST") ∧
        ∃ caller, Authenticated e request log caller ∧ caller.email = claims.email)
    (updates : ∀ body id ownerEmail, r = .updateEvent body id ownerEmail → request.Asks "PUT" (.event id) ∧
      ∃ caller, Authenticated e request log caller ∧ caller.email = ownerEmail)
    (deletes : ∀ id ownerEmail, r = .deleteEvent id ownerEmail → request.Asks "DELETE" (.event id) ∧
      ∃ caller, Authenticated e request log caller ∧ caller.email = ownerEmail) :
    (core program).Along (Issues e request) (fun _ _ => True) log := by
  refine (careful.lift Op.core log).mono ?_ fun _ _ _ => trivial
  rintro _ _ ⟨op, seen, rfl, rfl, issued⟩
  have grown : log <:+ seen.map (Entry.lift Op.core) ++ log := List.suffix_append _ _
  cases op with
  | sql statement =>
      cases statement with
      | insertEvent slug ownerEmail columns =>
          obtain ⟨claims, body, same, rfl⟩ := issued
          obtain ⟨post, caller, authenticated, email⟩ := creates claims body same
          exact ⟨post, caller, authenticated.mono grown, email⟩
      | updateEvent id ownerEmail columns =>
          obtain ⟨⟨body, same⟩, _⟩ := issued
          obtain ⟨put, caller, authenticated, email⟩ := updates body id ownerEmail same
          exact ⟨put, caller, authenticated.mono grown, email⟩
      | deleteEvent id ownerEmail =>
          obtain ⟨delete, caller, authenticated, email⟩ := deletes id ownerEmail issued.1
          exact ⟨delete, caller, authenticated.mono grown, email⟩
      | _ => trivial
  | _ => trivial

-- A core request outside the events API writes no event.
theorem along_checkoutCore {p : Platform} {r : Payknot.Request} {program : Payknot.Handler Value}
    (outside : r.editsEvents = false) (careful : program.Along (Payknot.Issues p r) (fun _ _ => True) [])
    (log : Log Reply) : (core program).Along (Issues e request) (fun _ _ => True) log := by
  apply along_core careful
  · rintro claims body rfl
    cases outside
  · rintro body id ownerEmail rfl
    cases outside
  · rintro id ownerEmail rfl
    cases outside

end Parts

section Credentials

def Op.checks : Op → Bool
  | .keys _ | .accounts _ => true
  | _ => false

theorem issues_checks {op : Op} (checks : op.checks = true) : Issues e request log op := by
  cases op with
  | keys | accounts => trivial
  | _ => cases checks

theorem along_checks {Part Value : Type} (inject : Part → Op) (checks : ∀ part, (inject part).checks = true)
    (program : Program (fun part => Reply (inject part)) Value) (log : Log Reply) :
    (program.lift inject).Along (fun _ op => op.checks = true) (fun _ _ => True) log := by
  refine ((Program.along_grows program []).lift inject log).mono ?_ fun _ _ _ => trivial
  rintro _ _ ⟨part, _, rfl, _, _⟩
  exact checks part

theorem along_authenticate (c : Credentials) (log : Log Reply) :
    (authenticate e c).Along (fun _ op => op.checks = true) (fun _ _ => True) log := by
  unfold authenticate
  apply (along_checks Op.accounts (fun _ => rfl) (Accounts.sessionClaimsFromRequest e.accounts c.cookie) log).sequence
  intro log claims _ _
  split
  · rw [Program.along_pure]
    trivial
  · apply (along_checks Op.accounts (fun _ => rfl) (Accounts.personalAccessTokenAuthFromRaw e.accounts _) log).sequence
    intro log pat _ _
    split <;> rw [Program.along_pure] <;> trivial

theorem along_authenticateOrAgent (c : Credentials) (log : Log Reply) :
    (authenticateOrAgent e c).Along (fun _ op => op.checks = true) (fun _ _ => True) log := by
  unfold authenticateOrAgent
  apply (along_checks Op.keys (fun _ => rfl) (AgentKeys.verifyAgentSignature e.keys c.agentID c.signed) log).sequence
  intro log claims _ _
  split
  · rw [Program.along_pure]
    trivial
  · exact along_authenticate c log

-- Past the middleware the request is authenticated.
theorem along_requireAuthOrAgentKey {c : Credentials} (from_request : request.credentials = some c)
    {next : Accounts.UserClaims → Handler Answer}
    (rest : ∀ log claims, Authenticated e request log claims →
      (next claims).Along (Issues e request) (Ends e request) log) :
    (requireAuthOrAgentKey e c next).Along (Issues e request) (Ends e request) [] := by
  have checked := (along_authenticateOrAgent (e := e) c []).and (along_follows (authenticateOrAgent e c) [])
  refine (checked.mono (fun _ _ both => issues_checks both.1) fun _ _ both => both.2).sequence
    fun log claims _ follows => ?_
  cases claims with
  | none =>
      rw [Program.along_pure]
      trivial
  | some claims => exact rest log claims ⟨c, log, from_request, follows, List.suffix_refl log⟩

theorem along_requireSessionAuth (cookie : Option String) {next : Accounts.UserClaims → Handler Answer}
    (rest : ∀ log claims, (next claims).Along (Issues e request) (Ends e request) log) :
    (requireSessionAuth e cookie next).Along (Issues e request) (Ends e request) [] := by
  apply (along_accounts _ []).sequence
  intro log claims _ _
  split
  · rw [Program.along_pure]
    trivial
  · exact rest log _

end Credentials

section Handlers

theorem along_listEvents {claims : Accounts.UserClaims} (authenticated : Authenticated e request log claims) :
    (listEvents e claims).Along (Issues e request) (Ends e request) log := by
  unfold listEvents query
  rw [Program.along_perform_bind]
  refine ⟨trivial, fun reply => ?_⟩
  cases reply with
  | error fault =>
      rw [Program.along_pure]
      trivial
  | ok rows =>
      rw [Program.along_pure]
      exact ⟨claims, rows, authenticated.mono (List.suffix_cons _ _), List.mem_cons_self, rfl⟩

theorem along_listCheckouts {claims : Accounts.UserClaims} (eventID : Int64)
    (authenticated : Authenticated e request log claims) :
    (listCheckouts eventID claims).Along (Issues e request) (Ends e request) log := by
  unfold listCheckouts query
  rw [Program.along_perform_bind]
  refine ⟨trivial, fun reply => ?_⟩
  cases reply with
  | error fault =>
      rw [Program.along_pure]
      trivial
  | ok rows =>
      rw [Program.along_pure]
      exact ⟨claims, eventID, rows, authenticated.mono (List.suffix_cons _ _), List.mem_cons_self, rfl⟩

theorem along_passed {Value : Type} {program : Handler Value} {wrap : Value → Answer}
    (along : program.Along (Issues e request) (fun _ _ => True) log) (plain : ∀ log value, Ends e request log (wrap value)) :
    (do return wrap (← program) : Handler Answer).Along (Issues e request) (Ends e request) log := by
  apply along.sequence
  intro log value _ _
  rw [Program.along_pure]
  exact plain log value

theorem along_eventsRoot {c : Credentials} {body : Option CreateEventRequest} {claims : Accounts.UserClaims}
    (authenticated : Authenticated e (.events c body) log claims) :
    (eventsRoot e c body claims).Along (Issues e (.events c body)) (Ends e (.events c body)) log := by
  unfold eventsRoot
  split
  · next post =>
    apply along_passed (along_core (careful_createEvent (some ⟨claims.email⟩) ⟨.post, body⟩) ?_ nofun nofun)
    · exact fun _ _ => trivial
    · rintro _ _ ⟨⟩
      exact ⟨⟨c, body, rfl, post⟩, claims, authenticated, rfl⟩
  · split
    · exact along_listEvents authenticated
    · rw [Program.along_pure]
      trivial

theorem along_eventsSubroutes {c : Credentials} {body : Option CreateEventRequest}
    {claims : Accounts.UserClaims} (authenticated : Authenticated e (.eventsSubroutes c body) log claims) :
    (eventsSubroutes e c body claims).Along (Issues e (.eventsSubroutes c body))
      (Ends e (.eventsSubroutes c body)) log := by
  unfold eventsSubroutes
  cases route : eventRoute c.path with
  | missing | invalid | inviteCodes =>
      rw [Program.along_pure]
      trivial
  | checkouts eventID =>
      simp only
      split
      · rw [Program.along_pure]
        trivial
      · exact along_listCheckouts eventID authenticated
  | event eventID =>
      simp only
      split
      · next put =>
        apply along_passed (along_core (careful_updateEvent body eventID claims.email) nofun ?_ nofun)
        · exact fun _ _ => trivial
        · rintro _ _ _ ⟨⟩
          exact ⟨⟨c, body, rfl, put, route⟩, claims, authenticated, rfl⟩
      · split
        · next delete =>
          apply along_passed (along_core (@careful_deleteEvent e.platform eventID claims.email) nofun nofun ?_)
          · exact fun _ _ => trivial
          · rintro _ _ ⟨⟩
            exact ⟨⟨c, body, rfl, delete, route⟩, claims, authenticated, rfl⟩
        · rw [Program.along_pure]
          trivial

theorem along_importLuma (c : Credentials) (url : Option String) :
    (importLumaEvent e c url).Along (Issues e request) (Ends e request) log := by
  unfold importLumaEvent
  split
  · rw [Program.along_pure]
    trivial
  · cases url with
    | none =>
        rw [Program.along_pure]
        trivial
    | some url =>
        simp only
        split
        · rw [Program.along_pure]
          trivial
        · split
          · rw [Program.along_pure]
            trivial
          · split
            · rw [Program.along_pure]
              trivial
            · split
              · rw [Program.along_pure]
                trivial
              · unfold fetchPage
                rw [Program.along_perform_bind]
                refine ⟨trivial, fun fetched => ?_⟩
                cases fetched with
                | page body =>
                    simp only
                    split <;> rw [Program.along_pure] <;> trivial
                | _ =>
                    rw [Program.along_pure]
                    trivial

theorem withoutClaims_outside {r : Payknot.Request} (outside : r.editsEvents = false) :
    (withoutClaims r).editsEvents = false := by
  cases r <;> exact outside

theorem along_checkout (remoteAddr : String) (r : CheckoutRequest) :
    (checkout e remoteAddr r).Along (Issues e request) (Ends e request) log := by
  have serve (log : Log Reply) :
      (do return .core (← core (Payknot.handler e.platform (withoutClaims r.val))) : Handler Answer).Along
        (Issues e request) (Ends e request) log :=
    along_passed (along_checkoutCore (withoutClaims_outside r.property) (handlers_careful _) log) fun _ _ => trivial
  unfold checkout
  simp only
  split
  · exact serve log
  · apply (along_limiter _ log).sequence
    intro log answer _ _
    split
    · exact serve log
    · rw [Program.along_pure]
      trivial

-- The receipt of a reference, as the two routes that show it read it.
theorem along_receipt (reference : String) {next : Option CheckoutStatusResponse → Handler Answer}
    (rest : ∀ log response, (next response).Along (Issues e request) (Ends e request) log) :
    (core (getCheckoutStatusByReference reference) >>= next).Along (Issues e request) (Ends e request) log := by
  have careful := @along_getCheckoutStatus e.platform .recoverErrorInvoices [] reference
  apply (along_checkoutCore rfl careful log).sequence
  exact fun log response _ _ => rest log response

theorem along_participantStatus (r : HttpRequest ParticipantStatusRequest) :
    (getParticipantStatus e r).Along (Issues e request) (Ends e request) log := by
  unfold getParticipantStatus
  split
  · rw [Program.along_pure]
    trivial
  · split
    · simp only
      split
      · rw [Program.along_pure]
        trivial
      · split
        · rw [Program.along_pure]
          trivial
        · unfold query
          rw [Program.along_perform_bind]
          refine ⟨trivial, fun found => ?_⟩
          split
          · apply along_receipt
            intro log response
            cases response <;> rw [Program.along_pure] <;> trivial
          · rw [Program.along_pure]
            trivial
    · rw [Program.along_pure]
      trivial

theorem along_checkoutStatus (method : Method) (reference : String) :
    (getCheckoutStatus e method reference).Along (Issues e request) (Ends e request) log := by
  unfold getCheckoutStatus
  split
  · rw [Program.along_pure]
    trivial
  · simp only
    split
    · rw [Program.along_pure]
      trivial
    · apply along_receipt
      intro log response
      cases response <;> rw [Program.along_pure] <;> trivial

theorem along_selectEvent (p : Platform) (slug : String) :
    (Payknot.sql (.selectActiveEventBySlug slug)).Along (Payknot.Issues p .recoverErrorInvoices)
      (fun _ _ => True) [] := by
  rw [Payknot.sql, Program.perform, Program.along_call]
  refine ⟨eventRead_nil, fun found => ?_⟩
  rw [Program.along_ret]
  trivial

theorem along_checkoutBySlug (method : Method) (path : String) :
    (getCheckoutBySlug e method path).Along (Issues e request) (Ends e request) log := by
  unfold getCheckoutBySlug
  split
  · rw [Program.along_pure]
    trivial
  · simp only
    split
    · rw [Program.along_pure]
      trivial
    · apply (along_checkoutCore rfl (along_selectEvent e.platform _) log).sequence
      intro log found _ _
      split <;> rw [Program.along_pure] <;> trivial

theorem along_agentKeysRoot (method : Method) (body : Option AgentKeys.AgentKeyUpsertRequest)
    (claims : Accounts.UserClaims) :
    (agentKeysRoot e method body claims).Along (Issues e request) (Ends e request) log := by
  unfold agentKeysRoot
  split
  · unfold query
    rw [Program.along_perform_bind]
    refine ⟨trivial, fun reply => ?_⟩
    split <;> rw [Program.along_pure] <;> trivial
  · exact along_passed (along_keys _ log) fun _ _ => trivial
  · rw [Program.along_pure]
    trivial

theorem along_agentAuthPAT (method : String) (body : Option AgentPATTokenRequest) :
    (agentAuthPAT e method body).Along (Issues e request) (Ends e request) log := by
  unfold agentAuthPAT
  split
  · rw [Program.along_pure]
    trivial
  · cases body with
    | none =>
        rw [Program.along_pure]
        trivial
    | some req =>
        simp only
        apply (along_accounts _ log).sequence
        intro log pat _ _
        split
        · rw [Program.along_pure]
          trivial
        · split
          · split
            · rw [Program.along_pure]
              trivial
            · exact along_passed (along_agents _ log) fun _ _ => trivial
          · exact along_passed (along_agents _ log) fun _ _ => trivial

theorem along_runtimeClaims (authorization : String) :
    (agentRuntimeClaimsFromRequest e authorization).Along (Issues e request) (fun _ _ => True) log := by
  unfold agentRuntimeClaimsFromRequest
  simp only
  split
  · rw [Program.along_pure]
    trivial
  · split
    · apply (along_accounts _ log).sequence
      intro log pat _ _
      split
      · rw [Program.along_pure]
        trivial
      · unfold timeNow
        rw [Program.along_perform_bind]
        refine ⟨trivial, fun now => ?_⟩
        rw [Program.along_pure]
        trivial
    · exact along_agents _ log

theorem along_agentAuthMe (method authorization : String) :
    (agentAuthMe e method authorization).Along (Issues e request) (Ends e request) log := by
  apply (along_runtimeClaims authorization).sequence
  intro log agent _ _
  split
  · rw [Program.along_pure]
    trivial
  · split <;> rw [Program.along_pure] <;> trivial

theorem along_handler (request : Request) :
    (handler e request).Along (Issues e request) (Ends e request) [] := by
  cases request with
  | account r => exact along_passed (along_accounts _ []) fun _ _ => trivial
  | me c =>
      apply along_requireAuthOrAgentKey rfl
      exact fun log claims _ => along_passed (along_accounts _ log) fun _ _ => trivial
  | events c body => exact along_requireAuthOrAgentKey rfl fun log claims => along_eventsRoot
  | eventsSubroutes c body => exact along_requireAuthOrAgentKey rfl fun log claims => along_eventsSubroutes
  | importLuma c url => exact along_requireAuthOrAgentKey rfl fun log claims _ => along_importLuma c url
  | agentKeys cookie method body =>
      exact along_requireSessionAuth cookie fun log claims => along_agentKeysRoot method body claims
  | revokeAgentKey cookie r =>
      apply along_requireSessionAuth cookie
      exact fun log claims => along_passed (along_keys _ log) fun _ _ => trivial
  | checkout remoteAddr r => exact along_checkout remoteAddr r
  | participantStatus r => exact along_participantStatus r
  | checkoutStatus method reference => exact along_checkoutStatus method reference
  | checkoutBySlug method path => exact along_checkoutBySlug method path
  | agent r => exact along_passed (along_agents _ []) fun _ _ => trivial
  | authPAT method body => exact along_agentAuthPAT method body
  | authMe method authorization => exact along_agentAuthMe method authorization

end Handlers

end Payknot.Server
