import Payknot.Origins
import Payknot.ServerHistory
import Payknot.RuntimeHistory

/-! What serving a request may perform: the operations of its own part, and the lookups of the
middleware in front of it. -/
namespace Payknot.Accounts
open GoText Interleaving

variable {e : Environment} {request : Request}

/-- The operations of the session and token checks, and of `Me`. -/
def Op.looksUp : Op → Bool
  | .now | .sql (.userSessionLive _ _) | .sql (.selectTokenOwner _) | .sql (.touchToken _) | .sql (.selectUser _) => true
  | _ => false

def Request.signsIn : Request → Bool
  | .login _ | .googleLogin _ => true
  | _ => false

def Request.makesToken : Request → Bool
  | .pats _ _ => true
  | _ => false

def Request.endsToken : Request → Bool
  | .revokePAT _ _ => true
  | _ => false

def Request.may (request : Request) : Op → Bool
  | .sql (.insertUserSession _ _ _) => request.signsIn
  | .sql (.insertToken _) => request.makesToken
  | .sql (.revokeToken _ _) => request.endsToken
  | _ => true

abbrev LooksUp (op : Op) : Prop := op.looksUp = true

theorem within_claims (cookie : Option String) : Within LooksUp (getClaimsFromRequest e cookie) := by
  cases cookie with
  | none => exact .pure _
  | some cookie =>
      unfold getClaimsFromRequest parseAndVerifyJWT timeNow
      repeat' with_reducible first
        | exact .pure _ | exact .perform rfl | refine .bind ?_ fun _ => ?_ | split

theorem within_session (cookie : Option String) : Within LooksUp (sessionClaimsFromRequest e cookie) := by
  unfold sessionClaimsFromRequest sql
  repeat' with_reducible first
    | exact .pure _ | exact within_claims _ | exact .perform rfl | refine .bind ?_ fun _ => ?_ | split

theorem within_token (raw : String) : Within LooksUp (personalAccessTokenAuthFromRaw e raw) := by
  unfold personalAccessTokenAuthFromRaw sql timeNow
  repeat' with_reducible first
    | exact .pure _ | exact .perform rfl | refine .bind ?_ fun _ => ?_ | split | dsimp only

theorem within_me (claims : Option UserClaims) (isGet : Bool) : Within LooksUp (me claims isGet) := by
  unfold me sql
  repeat' with_reducible first
    | exact .pure _ | exact .perform rfl | refine .bind ?_ fun _ => ?_ | split

abbrev Request.May (request : Request) (op : Op) : Prop := request.may op = true

theorem may_of_looksUp {op : Op} (looks : op.looksUp = true) : request.May op := by
  cases op with
  | sql statement =>
      cases statement with
      | insertUserSession | insertToken | revokeToken => cases looks
      | _ => rfl
  | _ => rfl

theorem within_sendToken (kind : TokenKind) (userID : Int64) (email : String) :
    Within request.May (createAndSendToken e kind userID email) := by
  unfold createAndSendToken randomHex timeNow sql sendEmail
  repeat' with_reducible first
    | exact .pure _ | exact .perform rfl | refine .bind ?_ fun _ => ?_ | split

theorem within_issueSession (signs : request.signsIn = true) (userID : Int64) (name email : String)
    (provider : Provider) : Within request.May (issueSessionAndRespond e userID name email provider) := by
  unfold issueSessionAndRespond newUUID timeNow sql
  refine .bind (.perform rfl) fun sessionID => .bind (.perform rfl) fun now => .bind (.perform signs) fun _ => ?_
  repeat' with_reducible first
    | exact .pure _ | exact .perform rfl | refine .bind ?_ fun _ => ?_ | split

theorem within_requireSession {cookie : Option String} {next : UserClaims → Handler Answer}
    (rest : ∀ claims, Within request.May (next claims)) : Within request.May (requireSessionAuth e cookie next) := by
  unfold requireSessionAuth
  refine .bind ((within_session cookie).mono fun _ => may_of_looksUp) fun claims => ?_
  cases claims with
  | none => exact .pure _
  | some claims => exact rest claims

theorem within_handler (request : Request) : Within request.May (handler e request) := by
  cases request with
  | login r =>
      change Within _ (login e r)
      unfold login sql
      repeat' with_reducible first
        | exact .pure _ | exact .perform rfl | exact within_issueSession rfl _ _ _ _ | refine .bind ?_ fun _ => ?_
        | split | dsimp only
  | googleLogin r =>
      change Within _ (googleLogin e r)
      unfold googleLogin googleTokenInfo sql
      repeat' with_reducible first
        | exact .pure _ | exact .perform rfl | exact within_issueSession rfl _ _ _ _ | refine .bind ?_ fun _ => ?_
        | split | dsimp only
  | register r =>
      change Within _ (register e r)
      unfold register bcryptGenerate sql createAndSendVerificationToken
      repeat' with_reducible first
        | exact .pure _ | exact .perform rfl | exact within_sendToken _ _ _ | refine .bind ?_ fun _ => ?_ | split
        | dsimp only
  | verifyEmail r =>
      change Within _ (verifyEmail e r)
      unfold verifyEmail sql
      repeat' with_reducible first
        | exact .pure _ | exact .perform rfl | refine .bind ?_ fun _ => ?_ | split | dsimp only
  | resendVerification r =>
      change Within _ (resendVerification e r)
      unfold resendVerification sql createAndSendVerificationToken
      repeat' with_reducible first
        | exact .pure _ | exact .perform rfl | exact within_sendToken _ _ _ | refine .bind ?_ fun _ => ?_ | split
        | dsimp only
  | forgotPassword r =>
      change Within _ (forgotPassword e r)
      unfold forgotPassword sql createAndSendPasswordResetToken
      repeat' with_reducible first
        | exact .pure _ | exact .perform rfl | exact within_sendToken _ _ _ | refine .bind ?_ fun _ => ?_ | split
        | dsimp only
  | resetPassword r =>
      change Within _ (resetPassword e r)
      unfold resetPassword bcryptGenerate sql
      repeat' with_reducible first
        | exact .pure _ | exact .perform rfl | refine .bind ?_ fun _ => ?_ | split | dsimp only
  | logout method cookie =>
      change Within _ (logout e method cookie)
      unfold logout revokeSession sql
      repeat' with_reducible first
        | exact .pure _ | exact (within_claims _).mono fun _ => may_of_looksUp | exact .perform rfl
        | refine .bind ?_ fun _ => ?_ | split
  | pats cookie r =>
      refine within_requireSession fun claims => ?_
      unfold agentPATsRoot listAgentPATs createAgentPAT tokenExpiry randomHex newUUID timeNow sql
      repeat' with_reducible first
        | exact .pure _ | exact .perform rfl | refine .bind ?_ fun _ => ?_ | split | dsimp only
  | revokePAT cookie r =>
      refine within_requireSession fun claims => ?_
      unfold revokeAgentPAT sql
      repeat' with_reducible first
        | exact .pure _ | exact .perform rfl | refine .bind ?_ fun _ => ?_ | split | dsimp only

end Payknot.Accounts

namespace Payknot.AgentKeys
open GoText Interleaving

/-- The operations of `agentPublicKeys`. -/
def Op.refreshes : Op → Bool
  | .sql (.upsertKey _ _ _) | .sql (.revokeKey _) | .invalidateCache => false
  | _ => true

theorem within_verify (e : Environment) (agentID : String) (r : SignedRequest) :
    Within (fun op => op.refreshes = true) (verifyAgentSignature e agentID r) := by
  unfold verifyAgentSignature agentPublicKeys agentPublicKeysFromDB verifyEd25519RequestSignature timeNow readCache
    writeCache sql
  repeat' with_reducible first
    | exact .pure _ | exact .perform rfl | refine .bind ?_ fun _ => ?_ | split | dsimp only

end Payknot.AgentKeys

namespace Payknot.Server
open GoText Interleaving

variable {e : Environment} {request : Request}

def Request.editsKeys : Request → Bool
  | .agentKeys _ _ _ | .revokeAgentKey _ _ => true
  | _ => false

def Request.runsAgent : Request → Bool
  | .agent _ | .authPAT _ _ => true
  | _ => false

/-- What a route behind `RequireAuthOrAgentKey` serves whoever is let in. -/
def served (e : Environment) : Request → Accounts.UserClaims → Handler Answer
  | .me c, claims => do return .accounts (← accounts (Accounts.me (some claims) (c.method = "GET")))
  | .events c body, claims => eventsRoot e c body claims
  | .eventsSubroutes c body, claims => eventsSubroutes e c body claims
  | .importLuma c url, _ => importLumaEvent e c url
  | _, _ => return unauthorized

theorem handler_guarded {c : Credentials} (shown : request.credentials = some c) :
    handler e request = requireAuthOrAgentKey e c (served e request) := by
  cases request with
  | me | events | eventsSubroutes | importLuma =>
      cases shown
      rfl
  | _ => cases shown

def Request.mayAccount : Request → Accounts.Op → Bool
  | .account r, op => r.may op
  | _, op => op.looksUp

/-- Whether serving the request may perform this. -/
def Request.may (request : Request) : Op → Bool
  | .accounts op => request.mayAccount op
  | .keys op => op.refreshes && request.credentials.isSome || request.editsKeys
  | .agents op => op.checks || request.runsAgent
  | _ => true

abbrev Request.May (request : Request) (op : Op) : Prop := request.may op = true

def Op.serves : Op → Bool
  | .accounts op => op.looksUp
  | .keys _ | .agents _ => false
  | _ => true

theorem mayAccount_of_looksUp {op : Accounts.Op} (looks : op.looksUp = true) : request.mayAccount op = true := by
  cases request with
  | account r => exact Accounts.may_of_looksUp looks
  | _ => exact looks

theorem may_of_serves {op : Op} (serves : op.serves = true) : request.May op := by
  cases op with
  | accounts op => exact mayAccount_of_looksUp serves
  | keys | agents => cases serves
  | _ => rfl

theorem within_lookup {Value : Type} {program : Program Accounts.Reply Value}
    (looks : Within Accounts.LooksUp program) : Within request.May (accounts program) :=
  .lift (looks.mono fun _ => mayAccount_of_looksUp)

theorem within_core {Value : Type} {kind : Op → Prop} (all : ∀ op, kind (.core op))
    (program : Program Payknot.Reply Value) : Within kind (core program) := by
  refine .part Op.core all _

theorem within_limiter {Value : Type} (program : Program RateLimit.Reply Value) :
    Within request.May (limiter program) := by
  refine .part Op.limiter (fun _ => rfl) _

theorem within_keys {Value : Type} (edits : request.editsKeys = true) (program : Program AgentKeys.Reply Value) :
    Within request.May (keys program) := by
  refine .part Op.keys (fun op => ?_) _
  change (op.refreshes && request.credentials.isSome || request.editsKeys) = true
  rw [edits, Bool.or_true]

theorem within_agents {Value : Type} (runs : request.runsAgent = true) (program : Program AgentRuntime.Reply Value) :
    Within request.May (agents program) := by
  refine .part Op.agents (fun op => ?_) _
  change (op.checks || request.runsAgent) = true
  rw [runs, Bool.or_true]

theorem within_authenticated {c : Credentials} (shown : request.credentials = some c) :
    Within request.May (authenticateOrAgent e c) := by
  have verifies (op : AgentKeys.Op) (refreshes : op.refreshes = true) : request.May (.keys op) := by
    change (op.refreshes && request.credentials.isSome || request.editsKeys) = true
    rw [refreshes, shown]
    rfl
  unfold authenticateOrAgent authenticate keys
  refine .bind (.lift ((AgentKeys.within_verify _ _ _).mono verifies)) fun claims => ?_
  cases claims with
  | some claims => exact .pure _
  | none =>
      refine .bind (within_lookup (Accounts.within_session _)) fun claims => ?_
      cases claims with
      | some claims => exact .pure _
      | none =>
          refine .bind (within_lookup (Accounts.within_token _)) fun pat => ?_
          cases pat <;> exact .pure _

theorem within_served (request : Request) (claims : Accounts.UserClaims) :
    Within (fun op => op.serves = true) (served e request claims) := by
  cases request with
  | me c => exact .bind (.lift (Accounts.within_me _ _)) fun _ => .pure _
  | events c body =>
      change Within _ (eventsRoot e c body claims)
      unfold eventsRoot listEvents query
      repeat' with_reducible first
        | exact .pure _ | exact .perform rfl | exact within_core (fun _ => rfl) _ | refine .bind ?_ fun _ => ?_ | split
  | eventsSubroutes c body =>
      change Within _ (eventsSubroutes e c body claims)
      unfold eventsSubroutes listCheckouts query
      repeat' with_reducible first
        | exact .pure _ | exact .perform rfl | exact within_core (fun _ => rfl) _ | refine .bind ?_ fun _ => ?_ | split
  | importLuma c url =>
      change Within _ (importLumaEvent e c url)
      unfold importLumaEvent fetchPage
      repeat' with_reducible first
        | exact .pure _ | exact .perform rfl | refine .bind ?_ fun _ => ?_ | split | dsimp only
  | _ => exact .pure _

theorem within_requireSession {cookie : Option String} {next : Accounts.UserClaims → Handler Answer}
    (rest : ∀ claims, Within request.May (next claims)) : Within request.May (requireSessionAuth e cookie next) := by
  unfold requireSessionAuth
  refine .bind (within_lookup (Accounts.within_session _)) fun claims => ?_
  cases claims with
  | none => exact .pure _
  | some claims => exact rest claims

theorem within_runtimeClaims (authorization : String) :
    Within request.May (agentRuntimeClaimsFromRequest e authorization) := by
  have looks (op : AgentRuntime.Op) (checks : op.checks = true) : request.May (.agents op) := by
    change (op.checks || request.runsAgent) = true
    rw [checks, Bool.true_or]
  have session (token : String) :
      Within request.May (agents (AgentRuntime.jwtBackedAgentClaimsFromRequest e.agents token)) :=
    .lift fun _ => (AgentRuntime.along_jwtBacked token).mono (fun _ op checks => looks op checks) fun _ _ _ => trivial
  unfold agentRuntimeClaimsFromRequest timeNow
  dsimp only
  split
  · exact .pure _
  · split
    · refine .bind (within_lookup (Accounts.within_token _)) fun pat => ?_
      cases pat with
      | none => exact .pure _
      | some pat => exact .bind (.perform rfl) fun now => .pure _
    · exact session _

theorem within_guarded {c : Credentials} (shown : request.credentials = some c) :
    Within request.May (handler e request) := by
  rw [handler_guarded shown]
  unfold requireAuthOrAgentKey
  refine .bind (within_authenticated shown) fun claims => ?_
  cases claims with
  | none => exact .pure _
  | some claims => exact (within_served request claims).mono fun _ => may_of_serves

theorem within_handler (request : Request) : Within request.May (handler e request) := by
  cases request with
  | me | events | eventsSubroutes | importLuma => exact within_guarded rfl
  | account r => exact .bind (.lift (Accounts.within_handler r)) fun _ => .pure _
  | agentKeys cookie method body =>
      refine within_requireSession fun claims => ?_
      unfold agentKeysRoot query
      repeat' with_reducible first
        | exact .pure _ | exact .perform rfl | exact within_keys rfl _ | refine .bind ?_ fun _ => ?_ | split
  | revokeAgentKey cookie r => exact within_requireSession fun claims => .bind (within_keys rfl _) fun _ => .pure _
  | checkout remoteAddr r =>
      change Within _ (checkout e remoteAddr r)
      unfold checkout
      repeat' with_reducible first
        | exact .pure _ | exact within_core (fun _ => rfl) _ | exact within_limiter _ | refine .bind ?_ fun _ => ?_ | split
  | participantStatus r =>
      change Within _ (getParticipantStatus e r)
      unfold getParticipantStatus query
      repeat' with_reducible first
        | exact .pure _ | exact .perform rfl | exact within_core (fun _ => rfl) _ | refine .bind ?_ fun _ => ?_ | split
        | dsimp only
  | checkoutStatus method reference =>
      change Within _ (getCheckoutStatus e method reference)
      unfold getCheckoutStatus
      repeat' with_reducible first
        | exact .pure _ | exact within_core (fun _ => rfl) _ | refine .bind ?_ fun _ => ?_ | split | dsimp only
  | checkoutBySlug method path =>
      change Within _ (getCheckoutBySlug e method path)
      unfold getCheckoutBySlug
      repeat' with_reducible first
        | exact .pure _ | exact within_core (fun _ => rfl) _ | refine .bind ?_ fun _ => ?_ | split | dsimp only
  | agent r => exact .bind (within_agents rfl _) fun _ => .pure _
  | authPAT method body =>
      change Within _ (agentAuthPAT e method body)
      unfold agentAuthPAT
      repeat' with_reducible first
        | exact .pure _ | exact within_lookup (Accounts.within_token _) | exact within_agents rfl _
        | refine .bind ?_ fun _ => ?_ | split
  | authMe method authorization =>
      refine .bind (within_runtimeClaims authorization) fun claims => ?_
      repeat' with_reducible first | exact .pure _ | split

section Parts
variable {choice : Choice} {op : Op} {reply : Reply op} {w after : World}

theorem occur_parts {event : WorldEvent} (occurred : occur event w = some after) :
    after.agents = w.agents ∧ after.accounts = w.accounts ∧ after.keys = w.keys := by
  obtain ⟨_, _, rfl⟩ := Option.map_eq_some_iff.mp occurred
  exact ⟨rfl, rfl, rfl⟩

-- An operation leaves the parts alone that it is not one of.
theorem exec_elsewhere (executed : exec e choice op w = some (reply, after)) :
    (after.accounts = w.accounts ∨ ∃ part, op = .accounts part) ∧
      (after.agents = w.agents ∨ ∃ part, op = .agents part) ∧ (after.keys = w.keys ∨ ∃ part, op = .keys part) := by
  cases op with
  | query | fetchPage =>
      have unchanged : after = w := by
        simp only [exec, Option.some.injEq] at executed
        first | (split at executed <;> cases executed <;> rfl) | (cases executed; rfl)
      rw [unchanged]
      exact ⟨.inl rfl, .inl rfl, .inl rfl⟩
  | accounts part =>
      obtain ⟨_, _, same⟩ := Option.map_eq_some_iff.mp executed
      cases same
      exact ⟨.inr ⟨part, rfl⟩, .inl rfl, .inl rfl⟩
  | agents part =>
      obtain ⟨_, _, same⟩ := Option.map_eq_some_iff.mp executed
      cases same
      exact ⟨.inl rfl, .inr ⟨part, rfl⟩, .inl rfl⟩
  | keys part =>
      obtain ⟨_, _, same⟩ := Option.map_eq_some_iff.mp executed
      cases same
      exact ⟨.inl rfl, .inl rfl, .inr ⟨part, rfl⟩⟩
  | core | limiter =>
      obtain ⟨_, _, same⟩ := Option.map_eq_some_iff.mp executed
      cases same
      exact ⟨.inl rfl, .inl rfl, .inl rfl⟩

theorem accounts_embed : Embeds (machine e) Op.accounts (Accounts.exec e.accounts) World.accounts
    fun w => { w.accounts with now := w.now } where
  performed executed := by
    rcases (exec_elsewhere executed).1 with same | ⟨part, rfl⟩
    · exact .inl same
    · obtain ⟨_, ran, same⟩ := Option.map_eq_some_iff.mp executed
      cases same
      exact .inr ⟨part, _, _, rfl, ran⟩
  occurred occurred := (occur_parts occurred).2.1

theorem agents_embed : Embeds (machine e) Op.agents AgentRuntime.exec World.agents
    fun w => { w.agents with now := w.now } where
  performed executed := by
    rcases (exec_elsewhere executed).2.1 with same | ⟨part, rfl⟩
    · exact .inl same
    · obtain ⟨_, ran, same⟩ := Option.map_eq_some_iff.mp executed
      cases same
      exact .inr ⟨part, _, _, rfl, ran⟩
  occurred occurred := (occur_parts occurred).1

theorem keys_embed : Embeds (machine e) Op.keys AgentKeys.exec World.keys
    fun w => { w.keys with now := w.now } where
  performed executed := by
    rcases (exec_elsewhere executed).2.2 with same | ⟨part, rfl⟩
    · exact .inl same
    · obtain ⟨_, ran, same⟩ := Option.map_eq_some_iff.mp executed
      cases same
      exact .inr ⟨part, _, _, rfl, ran⟩
  occurred occurred := (occur_parts occurred).2.2

end Parts

end Payknot.Server
