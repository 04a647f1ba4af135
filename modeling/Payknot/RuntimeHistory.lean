import Payknot.AgentRuntime

/-! What an agent request has seen when it marks a nonce, opens a session or records an
intent. -/
namespace Payknot.AgentRuntime
open GoText Interleaving Machine

variable {e : Environment} {request : Request} {log : Log Reply}

def Op.plain : Op → Bool
  | .sql (.selectNonce _ _) | .sql (.markNonceUsed _ _) | .sql (.insertAgentSession _ _ _ _)
  | .sql (.insertIntent _) | .sql (.confirmIntent _ _) => false
  | _ => true

def Op.checks : Op → Bool
  | .now | .sql (.agentSessionLive _ _) | .sql (.touchAgentSession _) => true
  | _ => false

theorem Op.plain_of_checks {op : Op} (checks : op.checks = true) : op.plain = true := by
  cases op with
  | sql statement => cases statement <;> first | rfl | cases checks
  | newUUID | randomNonce | now => rfl

def Request.Presents (request : Request) (agentPubkey nonce : String) : Prop :=
  ∃ method body, request = .authToken method (some body) ∧ agentPubkey = trimSpace body.agentPubkey ∧
    nonce = trimSpace body.nonce

def SawUnused (log : Log Reply) (agentPubkey nonce : String) : Prop :=
  ∃ expiresAt, log.Saw (.sql (.selectNonce agentPubkey nonce)) (.ok (some ⟨expiresAt, none⟩))

def Marked (log : Log Reply) (nonce : String) : Prop :=
  ∃ agentPubkey reply, log.Saw (.sql (.markNonceUsed agentPubkey nonce)) reply

/-- The agent's key signed this request, and the clock was inside its window. -/
def Authorised (e : Environment) (log : Log Reply) (r : CheckoutRequest) (agentPubkey : String) : Prop :=
  ∃ pub ts now, e.base58Decode agentPubkey = some pub ∧ log.Saw .now now ∧
    parseInt (trimSpace r.signed.timestamp) = .ok ts ∧
    signatureHolds e.toCrypto r.signed pub ts (unix now) = true

def NoIntent (log : Log Reply) : Prop :=
  ∀ intent reply, ¬ log.Saw (.sql (.insertIntent intent)) reply

def Issues (e : Environment) (request : Request) (log : Log Reply) : Op → Prop
  | .sql (.selectNonce agentPubkey nonce) => request.Presents agentPubkey nonce
  | .sql (.markNonceUsed agentPubkey nonce) =>
      SawUnused log agentPubkey nonce ∧ ∀ other, ¬ Marked log other
  | .sql (.insertAgentSession _ _ _ _) =>
      ∃ agentPubkey nonce, request.Presents agentPubkey nonce ∧ SawUnused log agentPubkey nonce ∧
        Marked log nonce
  | .sql (.insertIntent intent) => NoIntent log ∧ log.Saw .newUUID intent.id ∧
      ∃ r, request = .createCheckout r ∧ Authorised e log r intent.agentPubkey ∧
        intent.idempotencyKey = nullIfEmpty (trimSpace r.idempotencyKey)
  | .sql (.confirmIntent id _) =>
      ∃ intent reply, intent.id = id ∧ log.Saw (.sql (.insertIntent intent)) reply
  | _ => True

def Ends (log : Log Reply) : Answer → Prop
  | .token _ _ _ _ => ∃ id agentPubkey jti expiresAt,
      log.Saw (.sql (.insertAgentSession id agentPubkey jti expiresAt)) (.ok ())
  | _ => True

theorem issues_plain {op : Op} (plain : op.plain = true) : Issues e request log op := by
  cases op with
  | sql statement =>
      cases statement with
      | selectNonce | markNonceUsed | insertAgentSession | insertIntent | confirmIntent => cases plain
      | insertNonce | agentSessionLive | touchAgentSession | selectHourlyLimit | countHour
      | selectIntent | failIntent => trivial
  | newUUID | randomNonce | now => trivial

theorem NoIntent.cons (none_yet : NoIntent log) (entry : Entry Reply) (plain : entry.op.plain = true) :
    NoIntent (entry :: log) := by
  intro intent answer saw
  rcases List.mem_cons.mp saw with here | earlier
  · cases here
    cases plain
  · exact none_yet intent answer earlier

theorem Authorised.cons {r : CheckoutRequest} {agentPubkey : String}
    (authorised : Authorised e log r agentPubkey) (entry : Entry Reply) :
    Authorised e (entry :: log) r agentPubkey := by
  obtain ⟨pub, ts, now, decoded, saw, parsed, holds⟩ := authorised
  exact ⟨pub, ts, now, decoded, List.mem_cons_of_mem _ saw, parsed, holds⟩

section Session

theorem along_parseAndVerifyAgentJWT (token : String) :
    (parseAndVerifyAgentJWT e token).Along (fun _ op => op.checks = true) (fun _ _ => True) log := by
  unfold parseAndVerifyAgentJWT timeNow
  split
  · split
    · rw [Program.along_pure]
      trivial
    · rw [Program.along_perform_bind]
      refine ⟨rfl, fun now => ?_⟩
      split <;> rw [Program.along_pure] <;> trivial
  · rw [Program.along_pure]
    trivial

theorem along_jwtBacked (token : String) :
    (jwtBackedAgentClaimsFromRequest e token).Along (fun _ op => op.checks = true) (fun _ _ => True) log := by
  refine (along_parseAndVerifyAgentJWT token).sequence fun log claims _ _ => ?_
  split
  · unfold sql
    rw [Program.along_perform_bind]
    refine ⟨rfl, fun live => ?_⟩
    split
    · rw [Program.along_perform_bind]
      refine ⟨rfl, fun _ => ?_⟩
      rw [Program.along_pure]
      trivial
    · rw [Program.along_pure]
      trivial
  · rw [Program.along_pure]
    trivial

theorem along_signedAgentSession (r : CheckoutRequest) :
    (signedAgentSessionClaimsFromRequest e r).Along (fun _ op => op.checks = true)
      (fun log claims => ∀ agent, claims = some agent → Authorised e log r agent.agentPubkey) log := by
  have refused (log : Log Reply) : (pure none : Handler (Option AgentClaims)).Along
      (fun _ op => op.checks = true)
      (fun log claims => ∀ agent, claims = some agent → Authorised e log r agent.agentPubkey) log := by
    rw [Program.along_pure]
    simp
  simp only [signedAgentSessionClaimsFromRequest]
  split
  · exact refused _
  · refine (along_jwtBacked _).sequence fun log claims _ _ => ?_
    split
    · next agent =>
      split
      · next pub decoded =>
        split
        · exact refused _
        · have reads : timeNow.Along (fun _ op => op.checks = true)
              (fun after now => True ∧ after.Saw .now now) log := by
            rw [timeNow, Program.perform, Program.along_call]
            refine ⟨rfl, fun now => ?_⟩
            rw [Program.along_ret]
            exact ⟨trivial, List.mem_cons_self⟩
          refine (along_verifyEd25519RequestSignature reads trivial).sequence
            fun log accepted _ ⟨_, checked⟩ => ?_
          split
          · next holds =>
            obtain ⟨ts, now, saw, parsed, holds⟩ := checked holds
            rw [Program.along_pure]
            rintro _ ⟨⟩
            exact ⟨pub, ts, now, decoded, saw, parsed, holds⟩
          · exact refused _
      · exact refused _
    · exact refused _

end Session

section Checkout
variable {r : CheckoutRequest}

theorem along_settle {agentPubkey : String} {req : AgentCheckoutCreateRequest}
    (none_yet : NoIntent log) (authorised : Authorised e log r agentPubkey) :
    (settle e agentPubkey req (trimSpace r.idempotencyKey)).Along (Issues e (.createCheckout r)) Ends log := by
  unfold settle newUUID sql
  rw [Program.along_perform_bind]
  refine ⟨trivial, fun intentID => ?_⟩
  rw [Program.along_perform_bind]
  refine ⟨⟨none_yet.cons _ rfl, List.mem_cons_self, r, rfl, authorised.cons _, ?_⟩, fun inserted => ?_⟩
  · dsimp only
  · split
    · rw [Program.along_perform_bind]
      refine ⟨trivial, fun uuid => ?_⟩
      rw [Program.along_perform_bind]
      refine ⟨⟨_, inserted, ?_, List.mem_cons_of_mem _ List.mem_cons_self⟩, fun _ => ?_⟩
      · dsimp only
      · rw [Program.along_pure]
        trivial
    · rw [Program.along_perform_bind]
      refine ⟨trivial, fun _ => ?_⟩
      rw [Program.along_pure]
      trivial

theorem along_agentCheckoutCreate {agent : AgentClaims} (none_yet : NoIntent log)
    (authorised : Authorised e log r agent.agentPubkey) :
    (agentCheckoutCreate e agent r).Along (Issues e (.createCheckout r)) Ends log := by
  unfold agentCheckoutCreate
  split
  · rw [Program.along_pure]
    trivial
  · split
    · split
      · rw [Program.along_pure]
        trivial
      · unfold sql
        rw [Program.along_perform_bind]
        refine ⟨trivial, fun limit => ?_⟩
        rw [Program.along_perform_bind]
        refine ⟨trivial, fun count => ?_⟩
        have none_yet := (none_yet.cons ⟨.sql .selectHourlyLimit, limit⟩ rfl).cons
          ⟨.sql (.countHour agent.agentPubkey), count⟩ rfl
        have authorised := (authorised.cons ⟨.sql .selectHourlyLimit, limit⟩).cons
          ⟨.sql (.countHour agent.agentPubkey), count⟩
        simp only
        split
        · rw [Program.along_pure]
          trivial
        · split
          · rw [Program.along_perform_bind]
            refine ⟨trivial, fun earlier => ?_⟩
            split
            · rw [Program.along_pure]
              trivial
            · exact along_settle (none_yet.cons _ rfl) (authorised.cons _)
          · exact along_settle none_yet authorised
    · rw [Program.along_pure]
      trivial

theorem along_createCheckout : (createCheckout e r).Along (Issues e (.createCheckout r)) Ends [] := by
  have start : NoIntent [] := by rintro _ _ ⟨⟩
  have session := (along_signedAgentSession (e := e) r).keeps start
    fun _ _ _ checks none_yet => none_yet.cons _ (Op.plain_of_checks checks)
  have plain := (along_signedAgentSession (e := e) r).and session
  refine (plain.mono (fun _ _ both => issues_plain (Op.plain_of_checks both.1)) fun _ _ both => both.2).sequence
    fun log claims _ ⟨authorised, none_yet⟩ => ?_
  split
  · rw [Program.along_pure]
    trivial
  · exact along_agentCheckoutCreate none_yet (authorised _ rfl)

end Checkout

section Login

theorem along_agentAuthNonce (method agentPubkey : String) :
    (agentAuthNonce e method agentPubkey).Along (Issues e (.authNonce method agentPubkey)) Ends [] := by
  simp only [agentAuthNonce]
  split
  · rw [Program.along_pure]
    trivial
  · split
    · rw [Program.along_pure]
      trivial
    · split
      · rw [Program.along_pure]
        trivial
      · rw [Program.along_perform_bind]
        refine ⟨trivial, fun nonce => ?_⟩
        split
        · unfold timeNow sql
          rw [Program.along_perform_bind]
          refine ⟨trivial, fun now => ?_⟩
          rw [Program.along_perform_bind]
          refine ⟨trivial, fun inserted => ?_⟩
          split <;> rw [Program.along_pure] <;> trivial
        · rw [Program.along_pure]
          trivial

theorem along_writeAgentAuthResponse {agentPubkey nonce : String} (agentID scope : String)
    (presents : request.Presents agentPubkey nonce) (unused : SawUnused log agentPubkey nonce)
    (marked : Marked log nonce) :
    (writeAgentAuthResponse e agentID scope).Along (Issues e request) Ends log := by
  unfold writeAgentAuthResponse newUUID timeNow sql
  rw [Program.along_perform_bind]
  refine ⟨trivial, fun jti => ?_⟩
  rw [Program.along_perform_bind]
  refine ⟨trivial, fun expiry => ?_⟩
  rw [Program.along_perform_bind]
  refine ⟨trivial, fun issuedAt => ?_⟩
  split
  · rw [Program.along_pure]
    trivial
  · rw [Program.along_perform_bind]
    refine ⟨trivial, fun id => ?_⟩
    have later {entry₁ entry₂ entry₃ entry₄ : Entry Reply} {first : Entry Reply} (member : first ∈ log) :
        first ∈ entry₁ :: entry₂ :: entry₃ :: entry₄ :: log := by simp [member]
    rw [Program.along_perform_bind]
    constructor
    · obtain ⟨expiresAt, saw⟩ := unused
      obtain ⟨pubkey, reply, saw'⟩ := marked
      exact ⟨agentPubkey, nonce, presents, ⟨expiresAt, later saw⟩, pubkey, reply, later saw'⟩
    · intro inserted
      cases inserted with
      | error fault =>
          rw [Program.along_pure]
          trivial
      | ok done =>
          rw [Program.along_pure]
          exact ⟨_, _, _, _, List.mem_cons_self⟩

theorem along_agentAuthToken (method : String) (body : Option AgentTokenRequest) :
    (agentAuthToken e method body).Along (Issues e (.authToken method body)) Ends [] := by
  unfold agentAuthToken
  split
  · rw [Program.along_pure]
    trivial
  · cases body with
    | none =>
        rw [Program.along_pure]
        trivial
    | some req =>
        simp only
        split
        · rw [Program.along_pure]
          trivial
        · have presents : (Request.authToken method (some req)).Presents (trimSpace req.agentPubkey)
              (trimSpace req.nonce) := ⟨method, req, rfl, rfl, rfl⟩
          unfold sql timeNow
          rw [Program.along_perform_bind]
          refine ⟨presents, fun found => ?_⟩
          split
          · next expiresAt =>
            rw [Program.along_perform_bind]
            refine ⟨trivial, fun now => ?_⟩
            split
            · rw [Program.along_pure]
              trivial
            · split
              · rw [Program.along_pure]
                trivial
              · rw [Program.along_perform_bind]
                refine ⟨⟨⟨expiresAt, List.mem_cons_of_mem _ List.mem_cons_self⟩, ?_⟩, fun marked => ?_⟩
                · rintro other ⟨_, _, saw⟩
                  simp [Log.Saw] at saw
                · exact along_writeAgentAuthResponse _ _ presents
                    ⟨expiresAt, List.mem_cons_of_mem _ (List.mem_cons_of_mem _ List.mem_cons_self)⟩
                    ⟨_, marked, List.mem_cons_self⟩
          · rw [Program.along_pure]
            trivial
          · rw [Program.along_pure]
            trivial

end Login

theorem along_handler (request : Request) : (handler e request).Along (Issues e request) Ends [] := by
  cases request with
  | authNonce method agentPubkey => exact along_agentAuthNonce method agentPubkey
  | authToken method body => exact along_agentAuthToken method body
  | createCheckout r => exact along_createCheckout

section Effects
variable {choice : Choice} {op : Op} {reply : Reply op} {w w' : World}

theorem exec_sql {statement : Sql} {reply : Except Fault statement.Result}
    (executed : exec choice (.sql statement) w = some (reply, w')) :
    ((∃ fault, reply = .error fault) ∧ w' = w) ∨
      ∃ value, reply = .ok value ∧ choice.fault = none ∧ runSql statement w = .ok (value, w') := by
  simp only [exec] at executed
  split at executed
  · cases executed
    exact .inl ⟨⟨_, rfl⟩, rfl⟩
  · cases executed
    exact .inl ⟨⟨_, rfl⟩, rfl⟩
  · next no_fault ran =>
    cases executed
    exact .inr ⟨_, rfl, no_fault, ran⟩

inductive Effect (w : World) : Entry Reply → World → Prop where
  | unchanged {entry : Entry Reply} (draws_none : entry.op ≠ .newUUID) : Effect w entry w
  | drawn {uuid} (fresh : uuid ∉ w.minted) :
      Effect w ⟨.newUUID, uuid⟩ { w with minted := uuid :: w.minted }
  | nonce {agentPubkey nonce expiresAt} (absent : ∀ old ∈ w.nonces, old.nonce ≠ nonce) :
      Effect w ⟨.sql (.insertNonce agentPubkey nonce expiresAt), .ok ()⟩
        { w with nonces := w.nonces ++ [⟨agentPubkey, nonce, expiresAt, none⟩] }
  | marked (agentPubkey nonce) : Effect w ⟨.sql (.markNonceUsed agentPubkey nonce), .ok ()⟩
      { w with nonces := markUsed agentPubkey nonce w.now w.nonces }
  | session (id agentPubkey jti expiresAt) :
      Effect w ⟨.sql (.insertAgentSession id agentPubkey jti expiresAt), .ok ()⟩
        { w with sessions := w.sessions ++ [⟨id, agentPubkey, jti, expiresAt, none⟩] }
  | recorded {intent} (absent : ∀ old ∈ w.intents, old.id ≠ intent.id)
      (free : ∀ old ∈ w.intents, sameKey intent old = false) :
      Effect w ⟨.sql (.insertIntent intent), .ok ()⟩
        { w with intents := w.intents ++ [intent.row w.now] }
  | confirmed (id txSignature) : Effect w ⟨.sql (.confirmIntent id txSignature), .ok ()⟩
      { w with intents := confirmRow id txSignature w.intents }
  | failed (id) : Effect w ⟨.sql (.failIntent id), .ok ()⟩ { w with intents := failRow id w.intents }

theorem exec_effect (executed : exec choice op w = some (reply, w')) : Effect w ⟨op, reply⟩ w' := by
  cases op with
  | sql statement =>
      rcases exec_sql executed with ⟨_, rfl⟩ | ⟨value, rfl, _, ran⟩
      · exact .unchanged nofun
      · cases statement with
        | insertNonce agentPubkey nonce expiresAt =>
            simp only [runSql] at ran
            split at ran
            · cases ran
            · next absent =>
              cases ran
              exact .nonce fun old member same =>
                absent (List.any_eq_true.mpr ⟨old, member, by simpa using same⟩)
        | insertAgentSession id agentPubkey jti expiresAt =>
            simp only [runSql] at ran
            split at ran
            · cases ran
            · split at ran
              · cases ran
              · cases ran
                exact .session _ _ _ _
        | insertIntent intent =>
            simp only [runSql] at ran
            split at ran
            · cases ran
            · split at ran
              · cases ran
              · next absent =>
                split at ran
                · cases ran
                · next free =>
                  cases ran
                  refine .recorded (fun old member same => ?_) fun old member => ?_
                  · exact absent (List.any_eq_true.mpr ⟨old, member, by simpa using same⟩)
                  · exact Bool.eq_false_iff.mpr fun clash => free (List.any_eq_true.mpr ⟨old, member, clash⟩)
        | markNonceUsed | confirmIntent | failIntent =>
            cases ran
            constructor
        | selectNonce | agentSessionLive | touchAgentSession | selectHourlyLimit | countHour
        | selectIntent =>
            cases ran
            exact .unchanged nofun
  | newUUID =>
      simp only [exec] at executed
      split at executed
      · split at executed
        · cases executed
        · next fresh =>
          cases executed
          exact .drawn fresh
      · cases executed
  | randomNonce =>
      simp only [exec] at executed
      split at executed
      · cases executed
        exact .unchanged nofun
      · cases executed
  | now =>
      cases executed
      exact .unchanged nofun

end Effects

end Payknot.AgentRuntime
