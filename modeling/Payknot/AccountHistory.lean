import Payknot.Accounts
import Mathlib.Tactic.Common

/-! What an account request has seen when it stores or redeems an emailed token or opens
a session, and what each operation does to the tables. -/
namespace Payknot.Accounts
open GoText Interleaving Machine

variable {e : Environment} {request : Request} {log : Log Reply}

def Request.mails : Request → Option TokenKind
  | .register _ | .resendVerification _ => some .verification
  | .forgotPassword _ => some .reset
  | _ => none

/-- The request presents this token, to verify an email or to reset a password. -/
def Request.Presents (request : Request) : TokenKind → String → Prop
  | .verification, token => ∃ r req, request = .verifyEmail r ∧ r.body = some req ∧ token = trimSpace req.token
  | .reset, token => ∃ r req, request = .resetPassword r ∧ r.body = some req ∧ token = trimSpace req.token

def isDraw : Entry Reply → Prop
  | ⟨.randomHex _, _⟩ => True
  | _ => False

def isStore : Entry Reply → Prop
  | ⟨.sql (.setToken _ _ _), _⟩ => True
  | _ => False

def Redeems (kind : TokenKind) (hash : String) (entry : Entry Reply) : Prop :=
  ∃ affected : Nat, 0 < affected ∧
    match kind with
    | .verification => entry = ⟨.sql (.verifyEmail hash), .ok affected⟩
    | .reset => ∃ passwordHash, entry = ⟨.sql (.resetPassword passwordHash hash), .ok affected⟩

def Op.plain : Op → Bool
  | .sql (.setToken _ _ _) | .sql (.verifyEmail _) | .sql (.resetPassword _ _) => false
  | .sql (.refreshGoogleUser _ _) | .sql (.insertUserSession _ _ _) | .randomHex _ => false
  | _ => true

def Issues (e : Environment) (request : Request) (log : Log Reply) : Op → Prop
  | .randomHex _ => ∀ entry ∈ log, ¬ isDraw entry
  | .sql (.setToken kind stored _) => request.mails = some kind ∧ (∀ entry ∈ log, ¬ isStore entry) ∧
      ∃ token now, log.Saw (.randomHex 32) (some token) ∧ log.Saw .now now ∧
        stored = ⟨hashToken e token, now + 30 * minute⟩
  | .sql (.verifyEmail hash) => ∃ token, request.Presents .verification token ∧ hash = hashToken e token
  | .sql (.resetPassword _ hash) => ∃ token, request.Presents .reset token ∧ hash = hashToken e token
  | .sql (.refreshGoogleUser _ id) => ∃ r email row, request = .googleLogin r ∧
      log.Saw (.sql (.selectUserByEmail email)) (.ok (some row)) ∧ row.id = id
  | .sql (.insertUserSession _ userID _) => ∀ r, request = .login r → ∃ email row,
      log.Saw (.sql (.selectUserByEmail email)) (.ok (some row)) ∧ row.id = userID ∧
        row.authProvider = .password ∧ row.emailVerified = true
  | _ => True

/-- An affected row is the only way to the good answer of a redeeming request. -/
def Ends (e : Environment) (request : Request) (log : Log Reply) : Answer → Prop
  | .message _ => ∀ kind token, request.Presents kind token →
      ∃ entry ∈ log, Redeems kind (hashToken e token) entry
  | _ => True

theorem issues_plain {op : Op} (plain : op.plain = true) : Issues e request log op := by
  cases op with
  | sql statement =>
      cases statement with
      | setToken | verifyEmail | resetPassword | refreshGoogleUser | insertUserSession => cases plain
      | _ => trivial
  | randomHex => cases plain
  | _ => trivial

section Handlers

def Request.redeems : Request → Bool
  | .verifyEmail _ | .resetPassword _ => true
  | _ => false

theorem ends_any (redeems : request.redeems = false) (answer : Answer) : Ends e request log answer := by
  cases answer with
  | message text =>
      intro kind token presents
      cases kind <;> obtain ⟨r, req, rfl, _⟩ := presents <;> cases redeems
  | _ => trivial

theorem along_createAndSendToken {kind : TokenKind} (mails : request.mails = some kind)
    (undrawn : ∀ entry ∈ log, ¬ isDraw entry) (unstored : ∀ entry ∈ log, ¬ isStore entry)
    (userID : Int64) (email : String) :
    (createAndSendToken e kind userID email).Along (Issues e request) (fun _ _ => True) log := by
  unfold createAndSendToken randomHex timeNow sql sendEmail
  rw [Program.along_perform_bind]
  refine ⟨undrawn, fun drawn => ?_⟩
  cases drawn with
  | none =>
      rw [Program.along_pure]
      trivial
  | some token =>
      rw [Program.along_perform_bind]
      refine ⟨trivial, fun now => ?_⟩
      rw [Program.along_perform_bind]
      refine ⟨⟨mails, ?_, token, now, List.mem_cons_of_mem _ List.mem_cons_self, List.mem_cons_self, rfl⟩,
        fun stored => ?_⟩
      · rintro entry (_ | ⟨_, _ | ⟨_, earlier⟩⟩)
        · exact id
        · exact id
        · exact unstored entry earlier
      · cases stored with
        | error fault =>
            rw [Program.along_pure]
            trivial
        | ok done =>
            rw [Program.along_perform_bind]
            refine ⟨trivial, fun sent => ?_⟩
            split <;> rw [Program.along_pure] <;> trivial

theorem along_issueSession {name email : String} {userID : Int64} {provider : Provider}
    (redeems : request.redeems = false)
    (read : ∀ r, request = .login r → ∃ email row, log.Saw (.sql (.selectUserByEmail email)) (.ok (some row)) ∧
      row.id = userID ∧ row.authProvider = .password ∧ row.emailVerified = true) :
    (issueSessionAndRespond e userID name email provider).Along (Issues e request) (Ends e request) log := by
  unfold issueSessionAndRespond newUUID timeNow sql
  rw [Program.along_perform_bind]
  refine ⟨trivial, fun sessionID => ?_⟩
  rw [Program.along_perform_bind]
  refine ⟨trivial, fun now => ?_⟩
  rw [Program.along_perform_bind]
  constructor
  · intro r same
    obtain ⟨email, row, saw, facts⟩ := read r same
    exact ⟨email, row, List.mem_cons_of_mem _ (List.mem_cons_of_mem _ saw), facts⟩
  · intro inserted
    cases inserted with
    | error fault =>
        rw [Program.along_pure]
        exact ends_any redeems _
    | ok done =>
        rw [Program.along_perform_bind]
        refine ⟨trivial, fun issuedAt => ?_⟩
        split <;> rw [Program.along_pure] <;> exact ends_any redeems _

theorem along_register (r : HttpRequest RegisterRequest) :
    (register e r).Along (Issues e (.register r)) (Ends e (.register r)) [] := by
  unfold register
  split
  · rw [Program.along_pure]
    exact ends_any rfl _
  · split
    · simp only
      split
      · rw [Program.along_pure]
        exact ends_any rfl _
      · unfold bcryptGenerate sql
        rw [Program.along_perform_bind]
        refine ⟨trivial, fun hash => ?_⟩
        split
        · rw [Program.along_perform_bind]
          refine ⟨trivial, fun inserted => ?_⟩
          split
          · split <;> rw [Program.along_pure] <;> exact ends_any rfl _
          · refine (@along_createAndSendToken e (.register r) _ _ rfl ?_ ?_ _ _).sequence
              fun _ sent _ _ => ?_
            · rintro entry (_ | ⟨_, _ | ⟨_, ⟨⟩⟩⟩) <;> exact id
            · rintro entry (_ | ⟨_, _ | ⟨_, ⟨⟩⟩⟩) <;> exact id
            · split <;> rw [Program.along_pure] <;> exact ends_any rfl _
        · rw [Program.along_pure]
          exact ends_any rfl _
    · rw [Program.along_pure]
      exact ends_any rfl _

theorem along_login (r : HttpRequest LoginRequest) :
    (login e r).Along (Issues e (.login r)) (Ends e (.login r)) [] := by
  unfold login
  split
  · rw [Program.along_pure]
    exact ends_any rfl _
  · split
    · simp only
      split
      · rw [Program.along_pure]
        exact ends_any rfl _
      · unfold sql
        rw [Program.along_perform_bind]
        refine ⟨trivial, fun found => ?_⟩
        split
        · next row =>
          split
          · rw [Program.along_pure]
            exact ends_any rfl _
          · next own =>
            split
            · rw [Program.along_pure]
              exact ends_any rfl _
            · split
              · rw [Program.along_pure]
                exact ends_any rfl _
              · next verified =>
                apply along_issueSession rfl
                intro _ _
                have provider : row.authProvider = .password := by
                  by_contra other
                  exact own (.inl other)
                exact ⟨_, row, List.mem_cons_self, rfl, provider, by simpa using verified⟩
        · rw [Program.along_pure]
          exact ends_any rfl _
    · rw [Program.along_pure]
      exact ends_any rfl _

theorem along_googleLogin (r : HttpRequest GoogleLoginRequest) :
    (googleLogin e r).Along (Issues e (.googleLogin r)) (Ends e (.googleLogin r)) [] := by
  have no_login : ∀ r', Request.googleLogin r = .login r' → False := by
    rintro r' ⟨⟩
  unfold googleLogin
  split
  · rw [Program.along_pure]
    exact ends_any rfl _
  · split
    · simp only
      split
      · rw [Program.along_pure]
        exact ends_any rfl _
      · unfold googleTokenInfo sql
        rw [Program.along_perform_bind]
        refine ⟨trivial, fun reply => ?_⟩
        split
        · rw [Program.along_pure]
          exact ends_any rfl _
        · rw [Program.along_perform_bind]
          refine ⟨trivial, fun found => ?_⟩
          split
          · rw [Program.along_pure]
            exact ends_any rfl _
          · rw [Program.along_perform_bind]
            refine ⟨trivial, fun inserted => ?_⟩
            split
            · rw [Program.along_pure]
              exact ends_any rfl _
            · exact along_issueSession rfl fun r' same => (no_login r' same).elim
          · next row =>
            rw [Program.along_perform_bind]
            refine ⟨⟨r, _, row, rfl, List.mem_cons_self, rfl⟩, fun _ => ?_⟩
            split
            · rw [Program.along_pure]
              exact ends_any rfl _
            · exact along_issueSession rfl fun r' same => (no_login r' same).elim
    · rw [Program.along_pure]
      exact ends_any rfl _

theorem along_verifyEmail (r : HttpRequest VerifyEmailRequest) :
    (verifyEmail e r).Along (Issues e (.verifyEmail r)) (Ends e (.verifyEmail r)) [] := by
  unfold verifyEmail
  split
  · rw [Program.along_pure]
    trivial
  · split
    · next req body =>
      simp only
      split
      · rw [Program.along_pure]
        trivial
      · unfold sql
        rw [Program.along_perform_bind]
        refine ⟨⟨_, ⟨r, req, rfl, body, rfl⟩, rfl⟩, fun updated => ?_⟩
        split
        · rw [Program.along_pure]
          trivial
        · next affected =>
          split
          · rw [Program.along_pure]
            trivial
          · next some_row =>
            rw [Program.along_pure]
            rintro (_ | _) token ⟨_, req', ⟨⟩, body', rfl⟩
            cases body.symm.trans body'
            exact ⟨_, List.mem_cons_self, affected, Nat.pos_of_ne_zero some_row, rfl⟩
    · rw [Program.along_pure]
      trivial

theorem along_resetPassword (r : HttpRequest ResetPasswordRequest) :
    (resetPassword e r).Along (Issues e (.resetPassword r)) (Ends e (.resetPassword r)) [] := by
  unfold resetPassword
  split
  · rw [Program.along_pure]
    trivial
  · split
    · next req body =>
      simp only
      split
      · rw [Program.along_pure]
        trivial
      · unfold bcryptGenerate sql
        rw [Program.along_perform_bind]
        refine ⟨trivial, fun hashed => ?_⟩
        split
        · next newHash =>
          rw [Program.along_perform_bind]
          refine ⟨⟨_, ⟨r, req, rfl, body, rfl⟩, rfl⟩, fun updated => ?_⟩
          split
          · rw [Program.along_pure]
            trivial
          · next affected =>
            split
            · rw [Program.along_pure]
              trivial
            · next some_row =>
              rw [Program.along_pure]
              rintro (_ | _) token ⟨_, req', ⟨⟩, body', rfl⟩
              cases body.symm.trans body'
              exact ⟨_, List.mem_cons_self, affected, Nat.pos_of_ne_zero some_row, newHash, rfl⟩
        · rw [Program.along_pure]
          trivial
    · rw [Program.along_pure]
      trivial

theorem along_resendVerification (r : HttpRequest EmailRequest) :
    (resendVerification e r).Along (Issues e (.resendVerification r)) (Ends e (.resendVerification r)) [] := by
  unfold resendVerification
  split
  · rw [Program.along_pure]
    exact ends_any rfl _
  · split
    · simp only
      split
      · rw [Program.along_pure]
        exact ends_any rfl _
      · unfold sql
        rw [Program.along_perform_bind]
        refine ⟨trivial, fun found => ?_⟩
        split
        · split
          · rw [Program.along_pure]
            exact ends_any rfl _
          · refine (@along_createAndSendToken e (.resendVerification r) _ _ rfl ?_ ?_ _ _).sequence
              fun _ sent _ _ => ?_
            · rintro entry (_ | ⟨_, ⟨⟩⟩)
              exact id
            · rintro entry (_ | ⟨_, ⟨⟩⟩)
              exact id
            · split <;> rw [Program.along_pure] <;> exact ends_any rfl _
        · rw [Program.along_pure]
          exact ends_any rfl _
    · rw [Program.along_pure]
      exact ends_any rfl _

theorem along_forgotPassword (r : HttpRequest EmailRequest) :
    (forgotPassword e r).Along (Issues e (.forgotPassword r)) (Ends e (.forgotPassword r)) [] := by
  unfold forgotPassword
  split
  · rw [Program.along_pure]
    exact ends_any rfl _
  · split
    · simp only
      split
      · rw [Program.along_pure]
        exact ends_any rfl _
      · unfold sql
        rw [Program.along_perform_bind]
        refine ⟨trivial, fun found => ?_⟩
        split
        · split
          · rw [Program.along_pure]
            exact ends_any rfl _
          · refine (@along_createAndSendToken e (.forgotPassword r) _ _ rfl ?_ ?_ _ _).sequence
              fun _ sent _ _ => ?_
            · rintro entry (_ | ⟨_, ⟨⟩⟩)
              exact id
            · rintro entry (_ | ⟨_, ⟨⟩⟩)
              exact id
            · rw [Program.along_pure]
              exact ends_any rfl _
        · rw [Program.along_pure]
          exact ends_any rfl _
    · rw [Program.along_pure]
      exact ends_any rfl _

end Handlers

section Sessions

theorem along_getClaims (cookie : Option String) :
    (getClaimsFromRequest e cookie).Along (fun _ op => op.plain = true) (fun _ _ => True) log := by
  cases cookie with
  | none =>
      unfold getClaimsFromRequest
      rw [Program.along_pure]
      trivial
  | some cookie =>
      simp only [getClaimsFromRequest]
      unfold parseAndVerifyJWT timeNow
      split
      · rw [Program.along_perform_bind]
        refine ⟨rfl, fun now => ?_⟩
        split
        · rw [Program.along_pure]
          trivial
        · split <;> rw [Program.along_pure] <;> trivial
      · rw [Program.along_pure]
        trivial

theorem along_sessionClaims (cookie : Option String) :
    (sessionClaimsFromRequest e cookie).Along (fun _ op => op.plain = true) (fun _ _ => True) log := by
  refine (along_getClaims cookie).sequence fun log claims _ _ => ?_
  split
  · unfold sql
    rw [Program.along_perform_bind]
    refine ⟨rfl, fun live => ?_⟩
    split <;> rw [Program.along_pure] <;> trivial
  · rw [Program.along_pure]
    trivial

-- A route that asks for a session draws nothing before its handler runs.
theorem along_requireSessionAuth {cookie : Option String} {next : UserClaims → Handler Answer}
    (redeems : request.redeems = false)
    (handles : ∀ log claims, (∀ entry ∈ log, ¬ isDraw entry) →
      (next claims).Along (Issues e request) (Ends e request) log) :
    (requireSessionAuth e cookie next).Along (Issues e request) (Ends e request) [] := by
  have session : (sessionClaimsFromRequest e cookie).Along (fun log _ => ∀ entry ∈ log, ¬ isDraw entry)
      (fun after _ => True ∧ ∀ entry ∈ after, ¬ isDraw entry) [] := by
    apply (along_sessionClaims cookie).keeps
    · rintro entry ⟨⟩
    · rintro log op reply plain undrawn entry (_ | ⟨_, earlier⟩)
      · cases op with
        | randomHex size => cases plain
        | _ => exact id
      · exact undrawn entry earlier
  have plain := (along_sessionClaims cookie).and session
  refine (plain.mono (fun _ _ both => issues_plain both.1) fun _ _ both => both.2).sequence
    fun log claims _ ⟨_, undrawn⟩ => ?_
  cases claims with
  | none =>
      rw [Program.along_pure]
      exact ends_any redeems _
  | some claims => exact handles log claims undrawn

theorem along_logout (method : Method) (cookie : Option String) :
    (logout e method cookie).Along (Issues e (.logout method cookie)) (Ends e (.logout method cookie)) [] := by
  unfold logout
  split
  · rw [Program.along_pure]
    trivial
  · refine ((along_getClaims cookie).mono (fun _ _ plain => issues_plain plain) fun _ _ _ => trivial).sequence
      fun log claims _ _ => ?_
    cases claims with
    | none =>
        rw [Program.along_pure]
        trivial
    | some claims =>
        unfold revokeSession sql
        simp only
        rw [Program.along_bind]
        split
        · rw [Program.along_pure, Program.along_pure]
          trivial
        · rw [Program.along_perform_bind]
          refine ⟨trivial, fun _ => ?_⟩
          rw [Program.along_pure, Program.along_pure]
          trivial

theorem along_pats (cookie : Option String) (r : HttpRequest AgentPATCreateRequest) :
    (handler e (.pats cookie r)).Along (Issues e (.pats cookie r)) (Ends e (.pats cookie r)) [] := by
  apply along_requireSessionAuth rfl
  intro log claims undrawn
  unfold agentPATsRoot
  split
  · unfold listAgentPATs sql
    rw [Program.along_perform_bind]
    refine ⟨trivial, fun rows => ?_⟩
    split <;> rw [Program.along_pure] <;> trivial
  · unfold createAgentPAT randomHex newUUID
    split
    · simp only
      split
      · rw [Program.along_pure]
        trivial
      · split
        · rw [Program.along_pure]
          trivial
        · rw [Program.along_perform_bind]
          refine ⟨undrawn, fun secret => ?_⟩
          split
          · rw [Program.along_perform_bind]
            refine ⟨trivial, fun tokenID => ?_⟩
            have expiry (days : Int64) (log : Log Reply) : (tokenExpiry days).Along
                (Issues e (.pats cookie r)) (fun _ _ => True) log := by
              unfold tokenExpiry timeNow
              split
              · rw [Program.along_pure]
                trivial
              · rw [Program.along_perform_bind]
                refine ⟨trivial, fun now => ?_⟩
                rw [Program.along_pure]
                trivial
            refine (expiry _ _).sequence fun log expiresAt _ _ => ?_
            unfold sql timeNow
            rw [Program.along_perform_bind]
            refine ⟨trivial, fun inserted => ?_⟩
            split
            · rw [Program.along_pure]
              trivial
            · rw [Program.along_perform_bind]
              refine ⟨trivial, fun createdAt => ?_⟩
              rw [Program.along_pure]
              trivial
          · rw [Program.along_pure]
            trivial
    · rw [Program.along_pure]
      exact ends_any rfl _
  · rw [Program.along_pure]
    trivial

theorem along_revokePAT (cookie : Option String) (r : HttpRequest AgentPATRevokeRequest) :
    (handler e (.revokePAT cookie r)).Along (Issues e (.revokePAT cookie r))
      (Ends e (.revokePAT cookie r)) [] := by
  apply along_requireSessionAuth rfl
  intro log claims _
  unfold revokeAgentPAT
  split
  · rw [Program.along_pure]
    trivial
  · split
    · simp only
      split
      · rw [Program.along_pure]
        trivial
      · unfold sql
        rw [Program.along_perform_bind]
        refine ⟨trivial, fun revoked => ?_⟩
        split <;> rw [Program.along_pure] <;> trivial
    · rw [Program.along_pure]
      exact ends_any rfl _

theorem along_handler (request : Request) :
    (handler e request).Along (Issues e request) (Ends e request) [] := by
  cases request with
  | register r => exact along_register r
  | login r => exact along_login r
  | googleLogin r => exact along_googleLogin r
  | verifyEmail r => exact along_verifyEmail r
  | resendVerification r => exact along_resendVerification r
  | forgotPassword r => exact along_forgotPassword r
  | resetPassword r => exact along_resetPassword r
  | logout method cookie => exact along_logout method cookie
  | pats cookie r => exact along_pats cookie r
  | revokePAT cookie r => exact along_revokePAT cookie r

end Sessions

section Effects
variable {choice : Choice} {op : Op} {reply : Reply op} {w w' : World}

theorem exec_sql {statement : Sql} {reply : Except Fault statement.Result}
    (executed : exec e choice (.sql statement) w = some (reply, w')) :
    ((∃ fault, reply = .error fault) ∧ w' = w) ∨
      ∃ value, reply = .ok value ∧ runSql e statement w = .ok (value, w') := by
  simp only [exec, Option.some.injEq] at executed
  split at executed
  · cases executed
    exact .inl ⟨⟨_, rfl⟩, rfl⟩
  · cases executed
    exact .inl ⟨⟨_, rfl⟩, rfl⟩
  · next ran =>
    cases executed
    exact .inr ⟨_, rfl, ran⟩

/-- A statement that wrote `users`, or a random text that was drawn. -/
def Writes : Entry Reply → Prop
  | ⟨.sql (.insertPasswordUser _ _ _), .ok _⟩ | ⟨.sql (.insertGoogleUser _ _), .ok _⟩
  | ⟨.sql (.refreshGoogleUser _ _), .ok _⟩ | ⟨.sql (.setToken _ _ _), .ok _⟩
  | ⟨.sql (.verifyEmail _), .ok _⟩ | ⟨.sql (.resetPassword _ _), .ok _⟩ => True
  | ⟨.randomHex _, some _⟩ => True
  | _ => False

/-- What an operation and its reply do to `users` and to the random source. -/
inductive Effect (w : World) : Entry Reply → World → Prop where
  | quiet {entry : Entry Reply} {w' : World} (writes_none : ¬ Writes entry) (users : w'.users = w.users)
      (nextUserID : w'.nextUserID = w.nextUserID) (drawn : w'.drawn = w.drawn) : Effect w entry w'
  | drawn {size text} (fresh : text ∉ w.drawn) :
      Effect w ⟨.randomHex size, some text⟩ { w with drawn := text :: w.drawn }
  | registered {name email passwordHash} (fits : w.nextUserID < 2 ^ 63) :
      Effect w ⟨.sql (.insertPasswordUser name email passwordHash), .ok w.newID⟩
        (w.addUser name email (some passwordHash) .password false)
  | signedUp {name email} (fits : w.nextUserID < 2 ^ 63) :
      Effect w ⟨.sql (.insertGoogleUser name email), .ok w.newID⟩ (w.addUser name email none .google true)
  | refreshed (name id) :
      Effect w ⟨.sql (.refreshGoogleUser name id), .ok ()⟩ (w.updateUsers (·.id = id) (·.refresh name))
  | stored (kind token id) :
      Effect w ⟨.sql (.setToken kind token id), .ok ()⟩ (w.updateUsers (·.id = id) (·.store kind (some token)))
  | verified (hash) : Effect w ⟨.sql (.verifyEmail hash), .ok (w.users.countP (·.verifiable hash w.now))⟩
      (w.updateUsers (·.verifiable hash w.now) (·.verify))
  | reset (passwordHash hash) :
      Effect w ⟨.sql (.resetPassword passwordHash hash), .ok (w.users.countP (·.resettable hash w.now))⟩
        (w.updateUsers (·.resettable hash w.now) (·.setPassword passwordHash))

theorem exec_effect (executed : exec e choice op w = some (reply, w')) : Effect w ⟨op, reply⟩ w' := by
  cases op with
  | sql statement =>
      rcases exec_sql executed with ⟨⟨fault, rfl⟩, rfl⟩ | ⟨value, rfl, ran⟩
      · refine .quiet ?_ rfl rfl rfl
        cases statement <;> exact id
      · cases statement with
        | insertPasswordUser name email passwordHash =>
            simp only [runSql, World.insertUser] at ran
            split at ran
            · cases ran
            · split at ran
              · next fits =>
                cases ran
                exact .registered fits
              · cases ran
        | insertGoogleUser name email =>
            simp only [runSql, World.insertUser] at ran
            split at ran
            · cases ran
            · split at ran
              · next fits =>
                cases ran
                exact .signedUp fits
              · cases ran
        | refreshGoogleUser name id =>
            cases ran
            exact .refreshed name id
        | setToken kind token id =>
            cases ran
            exact .stored kind token id
        | verifyEmail hash =>
            cases ran
            exact .verified hash
        | resetPassword passwordHash hash =>
            cases ran
            exact .reset passwordHash hash
        | insertUserSession | insertToken =>
            simp only [runSql] at ran
            repeat' split at ran
            all_goals cases ran
            all_goals exact .quiet id rfl rfl rfl
        | revokeToken id userID =>
            simp only [runSql] at ran
            split at ran
            · cases ran
            · cases ran
              exact .quiet (fun writes => writes) rfl rfl rfl
        | _ =>
            cases ran
            exact .quiet id rfl rfl rfl
  | newUUID =>
      simp only [exec] at executed
      split at executed
      · cases executed
      · split at executed
        · cases executed
          exact .quiet id rfl rfl rfl
        · cases executed
  | randomHex size =>
      simp only [exec] at executed
      split at executed
      · cases executed
        exact .quiet id rfl rfl rfl
      · split at executed
        · next fresh =>
          cases executed
          exact .drawn fresh.1
        · cases executed
  | now | googleTokenInfo =>
      cases executed
      exact .quiet id rfl rfl rfl
  | bcryptGenerate password =>
      simp only [exec] at executed
      split at executed
      · cases executed
        exact .quiet id rfl rfl rfl
      · cases executed
  | sendEmail =>
      simp only [exec] at executed
      split at executed <;> cases executed <;> exact .quiet id rfl rfl rfl

end Effects
end Payknot.Accounts
