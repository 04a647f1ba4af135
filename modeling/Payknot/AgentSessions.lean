import Payknot.LoginSessions
import Payknot.LoginNonces

/-! Agent sessions and what is settled under them. A session is opened for whoever signs a nonce
of its own, or shows a live personal access token; a settlement is recorded for the key of such
a session, under a signature of that key over its very terms. -/
namespace Payknot.AgentRuntime
open GoText Interleaving Machine

variable {e : Environment} {request : Request} {log : Log Reply}

section Grounds

/-- The request answers an unused nonce in time, with a signature of the key over it. -/
def Proves (e : Environment) (request : Request) (log : Log Reply) (agentPubkey nonce : String)
    (expiresAt : Time) : Prop :=
  ∃ method body now, request = .authToken method (some body) ∧ trimSpace body.agentPubkey = agentPubkey ∧
    trimSpace body.nonce = nonce ∧ log.Saw (.sql (.selectNonce agentPubkey nonce)) (.ok (some ⟨expiresAt, none⟩)) ∧
    log.Saw .now now ∧ now ≤ expiresAt ∧ loginSignature e agentPubkey nonce (trimSpace body.signature) = .ok ()

theorem Proves.mono {agentPubkey nonce : String} {expiresAt : Time} {later : Log Reply}
    (proves : Proves e request log agentPubkey nonce expiresAt) (grown : log <:+ later) :
    Proves e request later agentPubkey nonce expiresAt := by
  obtain ⟨method, body, now, asked, key, text, found, read, live, signed⟩ := proves
  exact ⟨method, body, now, asked, key, text, found.mono grown, read.mono grown, live, signed⟩

theorem Proves.found {agentPubkey nonce : String} {expiresAt : Time}
    (proves : Proves e request log agentPubkey nonce expiresAt) :
    log.Saw (.sql (.selectNonce agentPubkey nonce)) (.ok (some ⟨expiresAt, none⟩)) := by
  obtain ⟨_, _, _, _, _, _, found, _⟩ := proves
  exact found

/-- The intent is for the terms of the signed body, which pass the policy. -/
def Terms (e : Environment) (r : CheckoutRequest) (intent : NewIntent) : Prop :=
  ∃ req, r.signed.body.bind e.decodeCheckout = some req ∧ policyRejects e req = none ∧
    intent.eventID = req.eventID ∧ intent.recipient = trimSpace req.recipient ∧
    intent.amountUSDC = req.amountUSDC ∧ intent.memo = trimSpace req.memo ∧
    intent.idempotencyKey = nullIfEmpty (trimSpace r.idempotencyKey)

/-- The request's token names this agent, under a session found live. -/
def Bears (e : Environment) (log : Log Reply) (r : CheckoutRequest) (claims : AgentClaims) : Prop :=
  Server.Carries e (bearerToken r.authorization) log claims ∧
    log.Saw (.sql (.agentSessionLive claims.jti claims.agentPubkey)) (.ok true)

def Grounds (e : Environment) (request : Request) (log : Log Reply) : Op → Prop
  | .sql (.insertNonce agentPubkey nonce expiresAt) =>
      (∃ method text, request = .authNonce method text ∧ trimSpace text = agentPubkey) ∧
        log.Saw .randomNonce (some nonce) ∧ ∃ now, log.Saw .now now ∧ expiresAt = now + 5 * minute
  | .sql (.insertAgentSession _ agentPubkey _ expiresAt) =>
      (∃ nonce live, Proves e request log agentPubkey nonce live) ∧
        ∃ now, log.Saw .now now ∧ expiresAt = now + 24 * 60 * minute
  | .sql (.insertIntent intent) => ∃ r claims, request = .createCheckout r ∧ Terms e r intent ∧
      Bears e log r claims ∧ claims.agentPubkey = intent.agentPubkey ∧ Authorised e log r intent.agentPubkey
  | _ => True

def Mints (agentID : String) (log : Log Reply) : Op → Prop
  | .sql (.insertNonce _ _ _) | .sql (.insertIntent _) => False
  | .sql (.insertAgentSession _ agentPubkey _ expiresAt) => agentPubkey = agentID ∧
      ∃ now, log.Saw .now now ∧ expiresAt = now + 24 * 60 * minute
  | _ => True

theorem grounds_of_checks {op : Op} (checks : op.checks = true) : Grounds e request log op := by
  cases op with
  | sql statement =>
      cases statement with
      | insertNonce | insertAgentSession | insertIntent => cases checks
      | _ => trivial
  | newUUID | randomNonce | now => trivial

theorem along_mints (agentID scope : String) :
    (writeAgentAuthResponse e agentID scope).Along (Mints agentID) (fun _ _ => True) log := by
  unfold writeAgentAuthResponse newUUID timeNow sql
  rw [Program.along_perform_bind]
  refine ⟨trivial, fun jti => ?_⟩
  rw [Program.along_perform_bind]
  refine ⟨trivial, fun now => ?_⟩
  dsimp only
  rw [Program.along_perform_bind]
  refine ⟨trivial, fun issuedAt => ?_⟩
  split
  · rw [Program.along_pure]
    trivial
  · rw [Program.along_perform_bind]
    refine ⟨trivial, fun id => ?_⟩
    rw [Program.along_perform_bind]
    constructor
    · refine ⟨rfl, now, ?_, rfl⟩
      exact List.mem_cons_of_mem _ (List.mem_cons_of_mem _ List.mem_cons_self)
    · intro inserted
      split <;> rw [Program.along_pure] <;> trivial

theorem grounds_authNonce (method text : String) :
    (agentAuthNonce e method text).Along (Grounds e (.authNonce method text)) (fun _ _ => True) [] := by
  simp only [agentAuthNonce]
  split
  · rw [Program.along_pure]
    trivial
  · split
    · rw [Program.along_pure]
      trivial
    · split
      · rw [Program.along_pure]
        trivial
      · rw [Program.along_perform_bind]
        refine ⟨trivial, fun drawn => ?_⟩
        cases drawn with
        | none =>
            rw [Program.along_pure]
            trivial
        | some nonce =>
            unfold timeNow sql
            rw [Program.along_perform_bind]
            refine ⟨trivial, fun now => ?_⟩
            rw [Program.along_perform_bind]
            constructor
            · exact ⟨⟨method, text, rfl, rfl⟩, List.mem_cons_of_mem _ List.mem_cons_self, now,
                List.mem_cons_self, rfl⟩
            · intro inserted
              split <;> rw [Program.along_pure] <;> trivial

-- A new session keeps to the grounds of the login that it ends.
theorem grounds_of_mints {agentPubkey nonce : String} {live : Time} {before : Log Reply} {op : Op}
    (proves : Proves e request before agentPubkey nonce live) (grown : before <:+ log)
    (mints : Mints agentPubkey log op) : Grounds e request log op := by
  cases op with
  | sql statement =>
      cases statement with
      | insertNonce | insertIntent => exact mints.elim
      | insertAgentSession id key jti expiresAt =>
          obtain ⟨rfl, recorded⟩ := mints
          exact ⟨⟨nonce, live, proves.mono grown⟩, recorded⟩
      | _ => trivial
  | newUUID | randomNonce | now => trivial

theorem grounds_authToken (method : String) (body : Option AgentTokenRequest) :
    (agentAuthToken e method body).Along (Grounds e (.authToken method body)) (fun _ _ => True) [] := by
  unfold agentAuthToken
  split
  · rw [Program.along_pure]
    trivial
  · cases body with
    | none =>
        rw [Program.along_pure]
        trivial
    | some req =>
        dsimp only
        split
        · rw [Program.along_pure]
          trivial
        · unfold sql timeNow
          rw [Program.along_perform_bind]
          refine ⟨trivial, fun found => ?_⟩
          split
          · next expiresAt =>
            rw [Program.along_perform_bind]
            refine ⟨trivial, fun now => ?_⟩
            split
            · rw [Program.along_pure]
              trivial
            · next live =>
              cases signed : loginSignature e (trimSpace req.agentPubkey) (trimSpace req.nonce)
                  (trimSpace req.signature) with
              | error text =>
                  dsimp only
                  rw [Program.along_pure]
                  trivial
              | ok done =>
                  dsimp only
                  rw [Program.along_perform_bind]
                  refine ⟨trivial, fun marked => ?_⟩
                  -- The nonce was unused and alive when it was read, before it is marked.
                  have proves : Proves e (.authToken method (some req)) [⟨.now, now⟩,
                      ⟨.sql (.selectNonce (trimSpace req.agentPubkey) (trimSpace req.nonce)), .ok
                        (some ⟨expiresAt, none⟩)⟩]
                      (trimSpace req.agentPubkey) (trimSpace req.nonce) expiresAt :=
                    ⟨method, req, now, rfl, rfl, rfl, List.mem_cons_of_mem _ List.mem_cons_self,
                      List.mem_cons_self, not_lt.mp live, signed⟩
                  exact ((along_mints _ _).and (along_since _ (List.suffix_cons _ _))).mono
                    (fun _ _ both => grounds_of_mints proves both.2 both.1) fun _ _ _ => trivial
          · rw [Program.along_pure]
            trivial
          · rw [Program.along_pure]
            trivial

-- A token lets in an agent whose session was found live.
theorem along_bears (r : CheckoutRequest) :
    (signedAgentSessionClaimsFromRequest e r).Along (fun _ op => op.checks = true)
      (fun log claims => ∀ agent, claims = some agent → Authorised e log r agent.agentPubkey ∧ Bears e log r agent)
      log := by
  have live (token : String) (log : Log Reply) : (jwtBackedAgentClaimsFromRequest e token).Along (fun _ _ => True)
      (fun log claims => ∀ agent, claims = some agent →
        log.Saw (.sql (.agentSessionLive agent.jti agent.agentPubkey)) (.ok true)) log := by
    refine (Program.along_any _ log).sequence fun log claims _ _ => ?_
    cases claims with
    | none =>
        rw [Program.along_pure]
        nofun
    | some agent =>
        unfold sql
        dsimp only
        rw [Program.along_perform_bind]
        refine ⟨trivial, fun found => ?_⟩
        split
        · rw [Program.along_perform_bind]
          refine ⟨trivial, fun touched => ?_⟩
          rw [Program.along_pure]
          rintro _ ⟨⟩
          exact List.mem_cons_of_mem _ List.mem_cons_self
        · rw [Program.along_pure]
          nofun
  have found : (signedAgentSessionClaimsFromRequest e r).Along (fun _ _ => True)
      (fun log claims => ∀ agent, claims = some agent →
        log.Saw (.sql (.agentSessionLive agent.jti agent.agentPubkey)) (.ok true)) log := by
    unfold signedAgentSessionClaimsFromRequest
    dsimp only
    split
    · rw [Program.along_pure]
      nofun
    · refine (live _ log).sequence fun log claims _ found => ?_
      cases claims with
      | none =>
          rw [Program.along_pure]
          nofun
      | some agent =>
          have saw := found agent rfl
          dsimp only
          split
          · split
            · rw [Program.along_pure]
              nofun
            · refine (Program.along_grows _ log).sequence fun log accepted _ grown => ?_
              split
              · rw [Program.along_pure]
                rintro _ ⟨⟩
                exact saw.mono grown
              · rw [Program.along_pure]
                nofun
          · rw [Program.along_pure]
            nofun
  refine (((along_signedAgentSession r).and (Server.along_carries_signed e r)).and found).mono
    (fun _ _ all => all.1.1) fun log claims all agent same => ?_
  exact ⟨all.1.1 agent same, (all.1.2 agent same).2, all.2 agent same⟩

theorem Bears.mono {r : CheckoutRequest} {claims : AgentClaims} {later : Log Reply} (bears : Bears e log r claims)
    (grown : log <:+ later) : Bears e later r claims :=
  ⟨bears.1.mono grown, bears.2.mono grown⟩

theorem Authorised.mono {r : CheckoutRequest} {agentPubkey : String} {later : Log Reply}
    (authorised : Authorised e log r agentPubkey) (grown : log <:+ later) : Authorised e later r agentPubkey := by
  obtain ⟨pub, ts, now, decoded, saw, parsed, holds⟩ := authorised
  exact ⟨pub, ts, now, decoded, saw.mono grown, parsed, holds⟩

section Checkout
variable {r : CheckoutRequest} {agent : AgentClaims} {req : AgentCheckoutCreateRequest}

theorem grounds_settle (body : r.signed.body.bind e.decodeCheckout = some req) (passes : policyRejects e req = none)
    (authorised : Authorised e log r agent.agentPubkey) (bears : Bears e log r agent) :
    (settle e agent.agentPubkey req (trimSpace r.idempotencyKey)).Along (Grounds e (.createCheckout r))
      (fun _ _ => True) log := by
  unfold settle newUUID sql
  rw [Program.along_perform_bind]
  refine ⟨trivial, fun intentID => ?_⟩
  rw [Program.along_perform_bind]
  constructor
  · have grown := List.suffix_cons (⟨.newUUID, intentID⟩ : Entry Reply) log
    refine ⟨r, agent, rfl, ⟨req, body, passes, rfl, rfl, rfl, rfl, ?_⟩, bears.mono grown, rfl, authorised.mono grown⟩
    dsimp only
  · intro inserted
    split
    · rw [Program.along_perform_bind]
      refine ⟨trivial, fun uuid => ?_⟩
      rw [Program.along_perform_bind]
      refine ⟨trivial, fun _ => ?_⟩
      rw [Program.along_pure]
      trivial
    · rw [Program.along_perform_bind]
      refine ⟨trivial, fun _ => ?_⟩
      rw [Program.along_pure]
      trivial

theorem grounds_agentCheckoutCreate (authorised : Authorised e log r agent.agentPubkey)
    (bears : Bears e log r agent) :
    (agentCheckoutCreate e agent r).Along (Grounds e (.createCheckout r)) (fun _ _ => True) log := by
  unfold agentCheckoutCreate
  split
  · rw [Program.along_pure]
    trivial
  · split
    · next req body =>
      cases passes : policyRejects e req with
      | some text =>
          dsimp only
          rw [Program.along_pure]
          trivial
      | none =>
          unfold sql
          dsimp only
          rw [Program.along_perform_bind]
          refine ⟨trivial, fun limit => ?_⟩
          rw [Program.along_perform_bind]
          refine ⟨trivial, fun count => ?_⟩
          -- The policy's two reads stand between the session's check and the settlement.
          have grown := (List.suffix_cons (⟨.sql .selectHourlyLimit, limit⟩ : Entry Reply) log).trans
            (List.suffix_cons (⟨.sql (.countHour agent.agentPubkey), count⟩ : Entry Reply) _)
          split
          · rw [Program.along_pure]
            trivial
          · split
            · rw [Program.along_perform_bind]
              refine ⟨trivial, fun earlier => ?_⟩
              split
              · rw [Program.along_pure]
                trivial
              · have grown := grown.trans (List.suffix_cons (⟨_, earlier⟩ : Entry Reply) _)
                exact grounds_settle body passes (authorised.mono grown) (bears.mono grown)
            · exact grounds_settle body passes (authorised.mono grown) (bears.mono grown)
    · rw [Program.along_pure]
      trivial

theorem grounds_createCheckout : (createCheckout e r).Along (Grounds e (.createCheckout r)) (fun _ _ => True) [] := by
  refine ((along_bears r).mono (fun _ _ checks => grounds_of_checks checks) fun _ _ held => held).sequence
    fun log claims _ held => ?_
  cases claims with
  | none =>
      rw [Program.along_pure]
      trivial
  | some agent => exact grounds_agentCheckoutCreate (held agent rfl).1 (held agent rfl).2

end Checkout

theorem grounds_handler (request : Request) : (handler e request).Along (Grounds e request) (fun _ _ => True) [] := by
  cases request with
  | authNonce method agentPubkey => exact grounds_authNonce method agentPubkey
  | authToken method body => exact grounds_authToken method body
  | createCheckout r => exact grounds_createCheckout

end Grounds

section Tables
variable {choice : Choice} {op : Op} {reply : Reply op} {w w' : World}

def nonceOrigin (entry : Entry Reply) (row : NonceRow) : Prop :=
  entry = ⟨.sql (.insertNonce row.agentPubkey row.nonce row.expiresAt), (.ok () : Except Fault Unit)⟩

def sessionOrigin (entry : Entry Reply) (row : AgentSessionRow) : Prop :=
  entry = ⟨.sql (.insertAgentSession row.id row.agentPubkey row.jti row.expiresAt), (.ok () : Except Fault Unit)⟩

def intentOrigin (entry : Entry Reply) (row : IntentRow) : Prop :=
  ∃ intent : NewIntent, row.Stores intent ∧
    entry = ⟨.sql (.insertIntent intent), (.ok () : Except Fault Unit)⟩

theorem exec_nonceRows (executed : exec choice op w = some (reply, w')) (row : NonceRow) (member : row ∈ w'.nonces) :
    (∃ old ∈ w.nonces, ∀ entry, nonceOrigin entry old → nonceOrigin entry row) ∨ nonceOrigin ⟨op, reply⟩ row := by
  cases exec_effect executed with
  | nonce =>
      rcases List.mem_append.mp member with old | new
      · exact .inl ⟨row, old, fun _ origin => origin⟩
      · cases List.mem_singleton.mp new
        exact .inr rfl
  | marked agentPubkey nonce =>
      obtain ⟨old, among, same⟩ := List.mem_map.mp member
      refine .inl ⟨old, among, fun entry origin => ?_⟩
      split at same <;> cases same <;> exact origin
  | _ => exact .inl ⟨row, member, fun _ origin => origin⟩

theorem exec_sessionRows (executed : exec choice op w = some (reply, w')) (row : AgentSessionRow)
    (member : row ∈ w'.sessions) :
    (∃ old ∈ w.sessions, ∀ entry, sessionOrigin entry old → sessionOrigin entry row) ∨
      sessionOrigin ⟨op, reply⟩ row := by
  cases exec_effect executed with
  | session =>
      rcases List.mem_append.mp member with old | new
      · exact .inl ⟨row, old, fun _ origin => origin⟩
      · cases List.mem_singleton.mp new
        exact .inr rfl
  | _ => exact .inl ⟨row, member, fun _ origin => origin⟩

theorem exec_intentRows (executed : exec choice op w = some (reply, w')) (row : IntentRow)
    (member : row ∈ w'.intents) :
    (∃ old ∈ w.intents, ∀ entry, intentOrigin entry old → intentOrigin entry row) ∨ intentOrigin ⟨op, reply⟩ row := by
  cases exec_effect executed with
  | @recorded intent =>
      rcases List.mem_append.mp member with old | new
      · exact .inl ⟨row, old, fun _ origin => origin⟩
      · cases List.mem_singleton.mp new
        exact .inr ⟨intent, rfl, rfl⟩
  | confirmed | failed =>
      obtain ⟨old, among, same⟩ := List.mem_map.mp member
      refine .inl ⟨old, among, fun entry origin => ?_⟩
      split at same <;> cases same <;> exact origin
  | _ => exact .inl ⟨row, member, fun _ origin => origin⟩

theorem exec_agentSessionLive {jti agentPubkey : String}
    (executed : exec choice (.sql (.agentSessionLive jti agentPubkey)) w = some (.ok true, w')) :
    ∃ row ∈ w.sessions, row.jti = jti ∧ row.agentPubkey = agentPubkey ∧ row.revokedAt = none ∧
      w.now < row.expiresAt := by
  rcases exec_sql executed with ⟨⟨_, failed⟩, _⟩ | ⟨value, same, _, ran⟩
  · cases failed
  · cases same
    simp only [runSql, Except.ok.injEq, Prod.mk.injEq, List.any_eq_true, Bool.and_eq_true, decide_eq_true_eq,
      Option.isNone_iff_eq_none] at ran
    obtain ⟨⟨row, member, same, own, open', unexpired⟩, _⟩ := ran
    exact ⟨row, member, same, own, open', unexpired⟩

theorem exec_foundNonce {agentPubkey nonce : String} {times : NonceTimes}
    (executed : exec choice (.sql (.selectNonce agentPubkey nonce)) w = some (.ok (some times), w')) :
    ∃ row ∈ w.nonces, row.agentPubkey = agentPubkey ∧ row.nonce = nonce ∧ row.expiresAt = times.expiresAt ∧
      row.usedAt = times.usedAt := by
  rcases exec_sql executed with ⟨⟨_, failed⟩, _⟩ | ⟨value, same, _, ran⟩
  · cases failed
  · cases same
    simp only [runSql, Except.ok.injEq, Prod.mk.injEq, Option.map_eq_some_iff] at ran
    obtain ⟨⟨row, found, rfl⟩, _⟩ := ran
    have matched := List.find?_some found
    simp only [decide_eq_true_eq] at matched
    exact ⟨row, List.mem_of_find?_eq_some found, matched.1, matched.2, rfl, rfl⟩

end Tables
end Payknot.AgentRuntime

namespace Payknot.Server
open GoText Interleaving Machine
open AgentRuntime (Proves Terms Bears Authorised Mints)

variable {e : Environment} {init cfg : Service} {request : Request} {log : Log Reply}

section Grounds

/-- The request has exchanged a live personal access token, for a session of the key it names
or of the token itself. -/
def Exchanges (e : Environment) (request : Request) (log : Log Reply) (agentID : String) : Prop :=
  ∃ method body pat seen, request = .authPAT method (some body) ∧
    Follows (accounts (Accounts.personalAccessTokenAuthFromRaw e.accounts (trimSpace body.token))) []
      (some pat) seen ∧
    seen <:+ log ∧ (agentID = trimSpace body.sessionPubkey ∧ isSessionPubkey e agentID = true ∨
      agentID = "pat:" ++ pat.tokenID)

def Grounds (e : Environment) (request : Request) (log : Log Reply) : Op → Prop
  | .agents part => part.checks = true ∨
      (∃ r seen, request = .agent r ∧ seen.map (Entry.lift Op.agents) <:+ log ∧
        AgentRuntime.Grounds e.agents r seen part) ∨
      ∃ agentID seen, Exchanges e request log agentID ∧ Mints agentID seen part
  | _ => True

theorem Exchanges.mono {agentID : String} {later : Log Reply} (exchanges : Exchanges e request log agentID)
    (grown : log <:+ later) : Exchanges e request later agentID := by
  obtain ⟨method, body, pat, seen, asked, follows, within, named⟩ := exchanges
  exact ⟨method, body, pat, seen, asked, follows, within.trans grown, named⟩

theorem grounds_of_may {op : Op} (other : request.runsAgent = false) (may : request.May op) :
    Grounds e request log op := by
  cases op with
  | agents part =>
      change (part.checks || request.runsAgent) = true at may
      rw [other, Bool.or_false] at may
      exact .inl may
  | _ => trivial

theorem grounds_mint {agentID : String} (scope : String) (exchanges : Exchanges e request log agentID) :
    (do return .agents (← agents (AgentRuntime.writeAgentAuthResponse e.agents agentID scope)) : Handler Answer).Along
      (Grounds e request) (fun _ _ => True) log := by
  have minted : (agents (AgentRuntime.writeAgentAuthResponse e.agents agentID scope)).Along (Grounds e request)
      (fun _ _ => True) log := by
    refine ((AgentRuntime.along_mints agentID scope).lift Op.agents log).mono ?_ fun _ _ _ => trivial
    rintro _ _ ⟨part, seen, rfl, rfl, mints⟩
    exact .inr (.inr ⟨agentID, seen, exchanges.mono (List.suffix_append _ _), mints⟩)
  refine minted.sequence fun after answer _ _ => ?_
  rw [Program.along_pure]
  trivial

theorem grounds_exchange (method : String) (body : Option AgentPATTokenRequest) :
    (agentAuthPAT e method body).Along (Grounds e (.authPAT method body)) (fun _ _ => True) [] := by
  unfold agentAuthPAT
  split
  · rw [Program.along_pure]
    trivial
  · cases body with
    | none =>
        rw [Program.along_pure]
        trivial
    | some req =>
        dsimp only
        have quiet : Within (fun op => ∃ part, op = Op.accounts part)
            (accounts (Accounts.personalAccessTokenAuthFromRaw e.accounts (trimSpace req.token))) := by
          refine .part Op.accounts (fun part => ⟨part, rfl⟩) _
        have grounded (log : Log Reply) (op : Op) (part : ∃ part, op = Op.accounts part) :
            Grounds e (.authPAT method (some req)) log op := by
          obtain ⟨part, rfl⟩ := part
          trivial
        refine (quiet.tracks grounded []).sequence fun log found _ ⟨_, follows⟩ => ?_
        cases found with
        | none =>
            rw [Program.along_pure]
            trivial
        | some pat =>
            dsimp only
            split
            · split
              · rw [Program.along_pure]
                trivial
              · next key =>
                refine grounds_mint _ ⟨method, req, pat, log, rfl, follows, List.suffix_refl _, .inl ⟨rfl, ?_⟩⟩
                simpa using key
            · exact grounds_mint _ ⟨method, req, pat, log, rfl, follows, List.suffix_refl _, .inr rfl⟩

theorem grounds_handler (request : Request) : (handler e request).Along (Grounds e request) (fun _ _ => True) [] := by
  by_cases other : request.runsAgent = false
  · exact (within_handler request []).mono (fun _ _ may => grounds_of_may other may) fun _ _ _ => trivial
  · cases request with
    | agent r =>
        have lifted : (agents (AgentRuntime.handler e.agents r)).Along (Grounds e (.agent r))
            (fun _ _ => True) [] := by
          refine ((AgentRuntime.grounds_handler r).lift Op.agents []).mono ?_ fun _ _ _ => trivial
          rintro _ _ ⟨part, seen, rfl, rfl, grounds⟩
          rw [List.append_nil]
          exact .inr (.inl ⟨r, seen, rfl, List.suffix_refl _, grounds⟩)
        refine lifted.sequence fun log answer _ _ => ?_
        rw [Program.along_pure]
        trivial
    | authPAT method body => exact grounds_exchange method body
    | _ => exact absurd rfl other

end Grounds

section Tables

def agentNonces (e : Environment) : Table (machine e) AgentRuntime.NonceRow :=
  Table.part agents_embed (·.nonces) AgentRuntime.nonceOrigin (fun _ => rfl) AgentRuntime.exec_nonceRows

def agentSessions (e : Environment) : Table (machine e) AgentRuntime.AgentSessionRow :=
  Table.part agents_embed (·.sessions) AgentRuntime.sessionOrigin (fun _ => rfl) AgentRuntime.exec_sessionRows

def agentIntents (e : Environment) : Table (machine e) AgentRuntime.IntentRow :=
  Table.part agents_embed (·.intents) AgentRuntime.intentOrigin (fun _ => rfl) AgentRuntime.exec_intentRows

/-- An operation of the runtime runs in its part of the world, by the server's clock. -/
theorem exec_agents {choice : Choice} {part : AgentRuntime.Op} {answer : AgentRuntime.Reply part} {w w' : World}
    (executed : (machine e).exec choice (.agents part) w = some (answer, w')) :
    AgentRuntime.exec ⟨choice.fault, choice.text⟩ part { w.agents with now := w.now } = some (answer, w'.agents) := by
  obtain ⟨⟨_, agents⟩, ran, delivered⟩ := Option.map_eq_some_iff.mp executed
  obtain ⟨rfl, rfl⟩ := Prod.mk.inj delivered
  exact ran

end Tables

section Settlements

/-- The server drew the nonce for this key, five minutes before it expires. -/
def Drew (thread : ServiceThread) (agentPubkey nonce : String) (expiresAt : Time) : Prop :=
  (∃ method text, thread.request = .agent (.authNonce method text) ∧ trimSpace text = agentPubkey) ∧
    thread.log.Saw (.agents .randomNonce) (some nonce) ∧
    ∃ drawn, thread.log.Saw (.agents .now) drawn ∧ expiresAt = drawn + 5 * minute

/-- The request has proved to hold the key: by a signature over a nonce that the server drew for
it, within five minutes, or by a live personal access token. -/
def LoggedIn (e : Environment) (cfg : Service) (login : ServiceThread) (agentPubkey : String) : Prop :=
  Exchanges e login.request login.log agentPubkey ∨
    ∃ r seen nonce expiresAt, login.request = .agent r ∧ seen.map (Entry.lift Op.agents) <:+ login.log ∧
      Proves e.agents r seen agentPubkey nonce expiresAt ∧
      ∃ drawer ∈ cfg.threads, Drew drawer agentPubkey nonce expiresAt

theorem loggedIn_of_opened (start : init.threads = []) (none_drawn : init.world.agents.nonces = [])
    (run : (machine e).Reaches anyStep init cfg) {login : ServiceThread} (member : login ∈ cfg.threads)
    {id agentPubkey jti : String} {expiresAt : Time}
    (opened : login.log.Saw (.agents (.sql (.insertAgentSession id agentPubkey jti expiresAt))) (.ok ())) :
    LoggedIn e cfg login agentPubkey := by
  have justified := run.justified grounds_handler start
  obtain ⟨earlier, within, grounds⟩ := justified.saw member opened
  rcases grounds with checks | ⟨r, seen, request, from_seen, ⟨nonce, live, proves⟩, _⟩ |
      ⟨agentID, _, exchanges, rfl, _⟩
  · cases checks
  · have seen_all := from_seen.trans within
    -- The login read the nonce's row, and the row goes back to the request that drew the nonce.
    obtain ⟨row, ⟨key, text, lives⟩, drawer, present, _, among, _, rfl, origin⟩ :=
      run.found_origin (agentNonces e)
        (fun row => row.agentPubkey = agentPubkey ∧ row.nonce = nonce ∧ row.expiresAt = live)
        start none_drawn member (seen_all.subset (Log.Saw.lift Op.agents proves.found)) (by
          intro choice w after executed
          obtain ⟨row, listed, key, text, lives, _⟩ := AgentRuntime.exec_foundNonce (exec_agents executed)
          exact ⟨row, listed, key, text, lives⟩)
    rw [origin] at among
    obtain ⟨before, since, grounds⟩ := justified.saw present among
    rcases grounds with checks | ⟨r', seen', request', from_seen', ⟨method, asked, rfl, same⟩,
        random, drawn, read, expiry⟩ |
      ⟨_, _, _, never⟩
    · cases checks
    · have seen_all' := from_seen'.trans since
      rw [text] at random
      rw [lives] at expiry
      exact .inr ⟨r, seen, nonce, live, request, seen_all, proves, drawer, present,
        ⟨method, asked, request', same.trans key⟩, seen_all'.subset (Log.Saw.lift Op.agents random), drawn,
        seen_all'.subset (Log.Saw.lift Op.agents read), expiry⟩
    · exact never.elim
  · exact .inl (exchanges.mono within)

/-- Any interleaving of requests to the whole server that begins with empty agent tables. Every
settlement on record has the terms of a request signed with its agent's key, its amount rounded
by the column, under a session of that agent; and whoever opened the session had proved to hold
the key, or had shown a live personal access token. -/
theorem settlements_signed (start : init.threads = []) (none_drawn : init.world.agents.nonces = [])
    (none_open : init.world.agents.sessions = []) (none_settled : init.world.agents.intents = [])
    (run : (machine e).Reaches anyStep init cfg) {row : AgentRuntime.IntentRow}
    (recorded : row ∈ cfg.world.agents.intents) :
    ∃ thread ∈ cfg.threads, ∃ r seen intent claims, thread.request = .agent (.createCheckout r) ∧
      seen.map (Entry.lift Op.agents) <:+ thread.log ∧
      thread.log.Saw (.agents (.sql (.insertIntent intent))) (.ok ()) ∧ row.Stores intent ∧
      Terms e.agents r intent ∧
      Authorised e.agents seen r row.agentPubkey ∧ Bears e.agents seen r claims ∧
      claims.agentPubkey = row.agentPubkey ∧
      ∃ login ∈ cfg.threads, (∃ id expiresAt, login.log.Saw (.agents (.sql (.insertAgentSession id row.agentPubkey
        claims.jti expiresAt))) (.ok ())) ∧ LoggedIn e cfg login row.agentPubkey := by
  have justified := run.justified grounds_handler start
  have accounted : (agentIntents e).Accounted cfg := run.accounted none_settled
  obtain ⟨thread, present, _, among, _, rfl, intent, stores, origin⟩ := accounted row recorded
  rw [origin] at among
  have inserted : thread.log.Saw (.agents (.sql (.insertIntent intent))) (.ok ()) := among
  obtain ⟨earlier, within, grounds⟩ := justified.saw present inserted
  rcases grounds with checks | ⟨_, seen, request, from_seen, r, claims, rfl, terms, bears, named, authorised⟩ |
    ⟨_, _, _, never⟩
  · cases checks
  · have seen_all := from_seen.trans within
    rw [stores.agentPubkey] at named authorised
    -- The session that the token names was found live, so its row goes back to a login.
    obtain ⟨session, ⟨jti, owner⟩, login, logged, _, opened, _, rfl, origin⟩ :=
      run.found_origin (agentSessions e)
        (fun session => session.jti = claims.jti ∧ session.agentPubkey = row.agentPubkey)
        start none_open present (seen_all.subset (Log.Saw.lift Op.agents bears.2)) (by
          intro choice w after executed
          obtain ⟨session, listed, jti, owner, _⟩ := AgentRuntime.exec_agentSessionLive (exec_agents executed)
          exact ⟨session, listed, jti, owner.trans named⟩)
    rw [origin] at opened
    have opened : login.log.Saw (.agents (.sql (.insertAgentSession session.id row.agentPubkey claims.jti
        session.expiresAt))) (.ok ()) := by
      rw [← jti, ← owner]
      exact opened
    exact ⟨thread, present, r, seen, intent, claims, request, seen_all, inserted, stores, terms, authorised,
      bears, named, login, logged, ⟨_, _, opened⟩, loggedIn_of_opened start none_drawn run logged opened⟩
  · exact never.elim

end Settlements

section Meetup
open AgentRuntime.Agents (agentPubkey loginNonce login sessionClaims)

def hosting (w : AgentRuntime.World) : World := { stored [] with agents := w }

def OnClock (w : AgentRuntime.World) : Prop := w.now = (stored []).core.now

abbrev Alone : (op : AgentRuntime.Op) → AgentRuntime.World → AgentRuntime.Reply op → AgentRuntime.World → Prop :=
  (AgentRuntime.machine environment.agents).performing fun _ => True

theorem hosted_performs {part : AgentRuntime.Op} {reply : AgentRuntime.Reply part} {w after : AgentRuntime.World}
    (clock : OnClock w)
    (performed : Alone part w reply after) :
    OnClock after ∧ Performed (.agents part) (hosting w) reply (hosting after) := by
  obtain ⟨choice, _, executed⟩ := performed
  have ran : AgentRuntime.exec choice part w = some (reply, after) := executed
  have kept : after.now = w.now := by cases AgentRuntime.exec_effect ran <;> rfl
  refine ⟨kept.trans clock, ⟨choice.fault, choice.random, none, .unavailable, .unreachable⟩, trivial, ?_⟩
  have here : ({ w with now := (stored []).core.now } : AgentRuntime.World) = w := by rw [← (clock : w.now = _)]
  change (AgentRuntime.exec choice part { w with now := (stored []).core.now }).map _ = _
  rw [here, ran]
  rfl

-- The agent runtime goes on in the server as it does alone.
theorem hosted_traces {Value : Type} {program : AgentRuntime.Handler Value} {w after : AgentRuntime.World}
    {later : Log AgentRuntime.Reply} {answer : Value}
    (traced : Traces Alone program w [] answer after later)
    (clock : OnClock w) :
    OnClock after ∧ Traces Performed (agents program) (hosting w) [] answer (hosting after)
      (later.map (Entry.lift Op.agents)) := by
  refine @Traces.lift _ _ Reply _ _ _ Op.agents hosting OnClock _ Performed _ _ _ _ _ _ traced clock ?_
  intro part w reply after same performed
  exact hosted_performs same performed

theorem hosted_serves {r : AgentRuntime.Request} {w after : AgentRuntime.World} {later : Log AgentRuntime.Reply}
    {answer : AgentRuntime.Answer} {cfg : Service} (world : cfg.world = hosting w) (resting : idle cfg = true)
    (traced : Traces Alone (AgentRuntime.handler environment.agents r) w [] answer after later) (clock : OnClock w) :
    OnClock after ∧ ∃ last, last.world = hosting after ∧ idle last = true ∧
      (machine environment).Reaches anyStep cfg last := by
  obtain ⟨kept, lifted⟩ := hosted_traces traced clock
  have handled : Traces Performed ((machine environment).handler (.agent r)) cfg.world [] (.agents answer)
      (hosting after) (later.map (Entry.lift Op.agents)) := world ▸ lifted.bind (.ret _ _ _)
  exact ⟨kept, _, rfl, idle_append resting, (traces_serves resting handled).any⟩

abbrev Played := AgentRuntime.Answer × AgentRuntime.World × Log AgentRuntime.Reply

/-- A nonce drawn, answered, and a settlement under the session, one after the other. -/
def settling : Option (Played × Played × Played) :=
  ((AgentRuntime.handler environment.agents (.authNonce "GET" agentPubkey)).playLogged AgentRuntime.exec
      (AgentRuntime.draws [loginNonce] ++ AgentRuntime.answers 2) AgentRuntime.Agents.opening.world []).bind
        fun drawn =>
    ((AgentRuntime.handler environment.agents login).playLogged AgentRuntime.exec (AgentRuntime.answers 3 ++
        AgentRuntime.draws [sessionClaims.jti] ++ AgentRuntime.answers 2 ++
        AgentRuntime.draws ["0b0f5a3e-2d41-4c55-9e0a-7f1d2c3b4a59"] ++ AgentRuntime.answers 1) drawn.2.1 []).bind
      fun opened => (AgentRuntime.settlement "" (AgentRuntime.keyless "2a4c6e80-1b3d-4f5a-8c7e-9d0b1f2e3a4c"
        "3b5d7f91-2c4e-4a6b-9d8f-0e1c2a3f4b5d") opened.2.1).map fun settled => (drawn, opened, settled)

def settled (played : Played × Played × Played) : Bool :=
  AgentRuntime.sessionOpen played.2.1.2.1 && !played.2.2.2.1.intents.isEmpty

-- An agent logs in by a nonce and settles: the settlement is found to be its own.
theorem settlements_signed_meetup : ∃ (cfg : Service) (row : AgentRuntime.IntentRow) (thread login : ServiceThread),
    row ∈ cfg.world.agents.intents ∧ thread ∈ cfg.threads ∧ login ∈ cfg.threads ∧
    (∃ r seen, thread.request = .agent (.createCheckout r) ∧ Authorised environment.agents seen r row.agentPubkey) ∧
    LoggedIn environment cfg login row.agentPubkey := by
  have plays : settling.any settled = true := by decide +kernel
  obtain ⟨⟨⟨_, w₁, log₁⟩, ⟨_, w₂, log₂⟩, ⟨_, w₃, log₃⟩⟩, played, done⟩ := (Option.any_eq_true _ _).mp plays
  simp only [settled, Bool.and_eq_true, Bool.not_eq_true', List.isEmpty_eq_false_iff_exists_mem] at done
  obtain ⟨live, row, recorded⟩ := done
  obtain ⟨drawn, played₁, rest⟩ := Option.bind_eq_some_iff.mp played
  obtain ⟨opened, played₂, rest⟩ := Option.bind_eq_some_iff.mp rest
  obtain ⟨paid, played₃, same⟩ := Option.map_eq_some_iff.mp rest
  cases same
  have first : Traces Alone _ _ _ _ _ _ := Program.playLogged_traces _ (fun _ _ => trivial) played₁
  have second : Traces Alone _ _ _ _ _ _ := Program.playLogged_traces _ (fun _ _ => trivial) played₂
  have created : Traces Alone _ _ _ _ _ _ := Program.playLogged_traces _ (fun _ _ => trivial) played₃
  have third : Traces Alone (AgentRuntime.handler environment.agents (.createCheckout (AgentRuntime.replay ""))) w₂ []
      _ w₃ log₃ := ((AgentRuntime.acceptable_replay live "").accepted trivial).bind created
  have start : OnClock AgentRuntime.Agents.opening.world := rfl
  have beginning : (⟨hosting AgentRuntime.Agents.opening.world, []⟩ : Service).world =
      hosting AgentRuntime.Agents.opening.world := rfl
  obtain ⟨clock, _, world, resting, run₁⟩ := hosted_serves beginning rfl first start
  obtain ⟨clock, _, world, resting, run₂⟩ := hosted_serves world resting second clock
  obtain ⟨_, last, world, _, run₃⟩ := hosted_serves world resting third clock
  have run := (run₁.trans run₂).trans run₃
  have recorded : row ∈ last.world.agents.intents := by rwa [world]
  obtain ⟨thread, member, r, seen, intent, claims, request, _, _, _, _, authorised, _, _, login, logged, _,
      proved⟩ :=
    settlements_signed rfl rfl rfl rfl run recorded
  exact ⟨last, row, thread, login, recorded, member, logged, ⟨r, seen, request, authorised⟩, proved⟩

end Meetup
end Payknot.Server
