import Payknot.Routes
import Payknot.TokenLifetime

/-! Login sessions. Only a login that has identified its user opens one; a request passes under
it only while its row is live; a logout or the end of its thirty days closes it for good. -/
namespace Payknot.Accounts
open GoText Interleaving Machine

variable {e : Environment} {request : Request} {log : Log Reply}

section Logins

/-- The request has proved to be the user with this number: by the password of a verified
password account, or by what Google says of the credential. -/
def Identified (e : Environment) (request : Request) (log : Log Reply) (userID : Int64) : Prop :=
  (∃ r req row, request = .login r ∧ r.body = some req ∧
    log.Saw (.sql (.selectUserByEmail (normalEmail e req.email))) (.ok (some row)) ∧ row.id = userID ∧
    row.authProvider = .password ∧ row.emailVerified = true ∧
    e.bcryptMatches (row.passwordHash.getD "") req.password = true) ∨
  ∃ r req reply email name, request = .googleLogin r ∧ r.body = some req ∧
    log.Saw (.googleTokenInfo (trimSpace req.credential)) reply ∧ googleIdentity e reply = .ok (email, name) ∧
    ((∃ row, log.Saw (.sql (.selectUserByEmail email)) (.ok (some row)) ∧ row.id = userID ∧
        row.authProvider = .google) ∨
      log.Saw (.sql (.insertGoogleUser name email)) (.ok userID))

theorem Identified.mono {userID : Int64} {later : Log Reply} (identified : Identified e request log userID)
    (grown : log <:+ later) : Identified e request later userID := by
  rcases identified with ⟨r, req, row, asked, body, found, rest⟩ |
    ⟨r, req, reply, email, name, asked, body, told, identity, ⟨row, found, rest⟩ | inserted⟩
  · exact .inl ⟨r, req, row, asked, body, found.mono grown, rest⟩
  · exact .inr ⟨r, req, reply, email, name, asked, body, told.mono grown, identity,
      .inl ⟨row, found.mono grown, rest⟩⟩
  · exact .inr ⟨r, req, reply, email, name, asked, body, told.mono grown, identity, .inr (inserted.mono grown)⟩

/-- A session is opened for a user who is identified, for thirty days from now. -/
def Opens (e : Environment) (request : Request) (log : Log Reply) : Op → Prop
  | .sql (.insertUserSession _ userID expiresAt) => Identified e request log userID ∧
      ∃ now, log.Saw .now now ∧ expiresAt = now + sessionTTL
  | _ => True

theorem opens_issueSession {userID : Int64} (identified : Identified e request log userID) (name email : String)
    (provider : Provider) :
    (issueSessionAndRespond e userID name email provider).Along (Opens e request) (fun _ _ => True) log := by
  unfold issueSessionAndRespond newUUID timeNow sql
  rw [Program.along_perform_bind]
  refine ⟨trivial, fun sessionID => ?_⟩
  rw [Program.along_perform_bind]
  refine ⟨trivial, fun now => ?_⟩
  dsimp only
  rw [Program.along_perform_bind]
  constructor
  · constructor
    · exact (identified.mono (List.suffix_cons _ _)).mono (List.suffix_cons _ _)
    · exact ⟨now, List.mem_cons_self, rfl⟩
  · intro inserted
    cases inserted with
    | error fault =>
        rw [Program.along_pure]
        trivial
    | ok done =>
        dsimp only
        rw [Program.along_perform_bind]
        refine ⟨trivial, fun issuedAt => ?_⟩
        split <;> rw [Program.along_pure] <;> trivial

theorem opens_login (r : HttpRequest LoginRequest) :
    (login e r).Along (Opens e (.login r)) (fun _ _ => True) [] := by
  unfold login
  split
  · rw [Program.along_pure]
    trivial
  · split
    · next req body =>
      dsimp only
      split
      · rw [Program.along_pure]
        trivial
      · unfold sql
        rw [Program.along_perform_bind]
        refine ⟨trivial, fun found => ?_⟩
        split
        · next row =>
          split
          · rw [Program.along_pure]
            trivial
          · next password =>
            split
            · rw [Program.along_pure]
              trivial
            · next matched =>
              split
              · rw [Program.along_pure]
                trivial
              · next verified =>
                apply opens_issueSession
                refine .inl ⟨r, req, row, rfl, body, List.mem_cons_self, rfl, ?_, by simpa using verified,
                  by simpa using matched⟩
                by_contra other
                exact password (.inl other)
        · rw [Program.along_pure]
          trivial
    · rw [Program.along_pure]
      trivial

theorem opens_googleLogin (r : HttpRequest GoogleLoginRequest) :
    (googleLogin e r).Along (Opens e (.googleLogin r)) (fun _ _ => True) [] := by
  unfold googleLogin
  split
  · rw [Program.along_pure]
    trivial
  · split
    · next req body =>
      dsimp only
      split
      · rw [Program.along_pure]
        trivial
      · unfold googleTokenInfo sql
        rw [Program.along_perform_bind]
        refine ⟨trivial, fun reply => ?_⟩
        cases identity : googleIdentity e reply with
        | error text =>
            dsimp only
            rw [Program.along_pure]
            trivial
        | ok known =>
            obtain ⟨email, name⟩ := known
            dsimp only
            rw [Program.along_perform_bind]
            refine ⟨trivial, fun found => ?_⟩
            have told (log : Log Reply) (grown : [⟨.googleTokenInfo (trimSpace req.credential), reply⟩] <:+ log) :
                log.Saw (.googleTokenInfo (trimSpace req.credential)) reply := grown.subset List.mem_cons_self
            rcases found with fault | _ | row
            · rw [Program.along_pure]
              trivial
            · dsimp only
              rw [Program.along_perform_bind]
              refine ⟨trivial, fun inserted => ?_⟩
              cases inserted with
              | error fault =>
                  rw [Program.along_pure]
                  trivial
              | ok userID =>
                  apply opens_issueSession
                  exact .inr ⟨r, req, reply, email, name, rfl, body, told _ ⟨[_, _], rfl⟩, identity,
                    .inr List.mem_cons_self⟩
            · dsimp only
              rw [Program.along_perform_bind]
              refine ⟨trivial, fun refreshed => ?_⟩
              split
              · rw [Program.along_pure]
                trivial
              · next other =>
                apply opens_issueSession
                refine .inr ⟨r, req, reply, email, name, rfl, body, told _ ⟨[_, _], rfl⟩, identity,
                  .inl ⟨row, List.mem_cons_of_mem _ List.mem_cons_self, rfl, ?_⟩⟩
                cases provider : row.authProvider with
                | password => exact absurd provider other
                | google => rfl
    · rw [Program.along_pure]
      trivial

theorem opens_of_may {op : Op} (other : request.signsIn = false) (may : request.May op) : Opens e request log op := by
  cases op with
  | sql statement =>
      cases statement with
      | insertUserSession =>
          rw [Request.May, Request.may, other] at may
          cases may
      | _ => trivial
  | _ => trivial

theorem opens_handler (request : Request) :
    (handler e request).Along (Opens e request) (fun _ _ => True) [] := by
  by_cases other : request.signsIn = false
  · exact (within_handler request []).mono (fun _ _ may => opens_of_may other may) fun _ _ _ => trivial
  · cases request with
    | login r => exact opens_login r
    | googleLogin r => exact opens_googleLogin r
    | _ => exact absurd rfl other

-- Claims pass under a session that the store has found live.
theorem along_live (cookie : Option String) : (sessionClaimsFromRequest e cookie).Along (fun _ _ => True)
    (fun log claims => ∀ session, claims = some session →
      log.Saw (.sql (.userSessionLive session.sessionID session.userID)) (.ok true)) log := by
  refine (Program.along_any (getClaimsFromRequest e cookie) log).sequence fun log claims _ _ => ?_
  cases claims with
  | none =>
      rw [Program.along_pure]
      nofun
  | some claims =>
      unfold sql
      dsimp only
      rw [Program.along_perform_bind]
      refine ⟨trivial, fun live => ?_⟩
      split
      · rw [Program.along_pure]
        rintro _ ⟨⟩
        exact List.mem_cons_self
      · rw [Program.along_pure]
        nofun

theorem along_named (cookie : Option String) : (getClaimsFromRequest e cookie).Along (fun _ _ => True)
    (fun _ claims => ∀ session, claims = some session → ¬ trimSpace session.sessionID = "") log := by
  cases cookie with
  | none =>
      unfold getClaimsFromRequest
      rw [Program.along_pure]
      nofun
  | some cookie =>
      simp only [getClaimsFromRequest]
      unfold parseAndVerifyJWT timeNow
      split
      · next claims _ =>
        rw [Program.along_perform_bind]
        refine ⟨trivial, fun now => ?_⟩
        split
        · rw [Program.along_pure]
          nofun
        · split
          · rw [Program.along_pure]
            nofun
          · next proper =>
            rw [Program.along_pure]
            rintro _ ⟨⟩ blank
            exact proper (.inr (.inr blank))
      · rw [Program.along_pure]
        nofun

-- A logout that reads the claims of a cookie asks for the end of their session.
theorem along_logout_revokes (cookie : Option String) :
    (logout e .post cookie).Along (fun _ _ => True)
      (fun log _ => ∃ claims seen, Follows (getClaimsFromRequest e cookie) [] claims seen ∧ seen <:+ log ∧
        ∀ session, claims = some session →
          ∃ reply, log.Saw (.sql (.revokeUserSession session.sessionID)) reply) [] := by
  unfold logout
  rw [if_neg (by simp)]
  have named := (along_named cookie).and (along_follows (getClaimsFromRequest e cookie) [])
  refine (named.mono (fun _ _ _ => trivial) fun _ _ both => both).sequence fun log claims _ ⟨reads, follows⟩ => ?_
  cases claims with
  | none =>
      rw [Program.along_pure]
      exact ⟨none, log, follows, List.suffix_refl _, nofun⟩
  | some claims =>
      unfold revokeSession sql
      simp only [reads claims rfl, if_false]
      rw [Program.bind_assoc, Program.along_perform_bind]
      refine ⟨trivial, fun reply => ?_⟩
      change (pure Answer.loggedOut : Handler Answer).Along _ _ _
      rw [Program.along_pure]
      refine ⟨some claims, log, follows, List.suffix_cons _ _, ?_⟩
      rintro _ ⟨⟩
      exact ⟨reply, List.mem_cons_self⟩

end Logins

section Sessions
variable {choice : Choice} {op : Op} {reply : Reply op} {w w' : World}

/-- The primary key of `user_sessions`. -/
def SessionsKeyed (w : World) : Prop := (w.sessions.map UserSessionRow.id).Nodup

structure Lasts (row row' : UserSessionRow) : Prop where
  id : row'.id = row.id
  userID : row'.userID = row.userID
  expiresAt : row'.expiresAt = row.expiresAt
  revoked : row.revokedAt.isSome = true → row'.revokedAt.isSome = true

theorem Lasts.refl (row : UserSessionRow) : Lasts row row := ⟨rfl, rfl, rfl, fun revoked => revoked⟩

theorem Lasts.trans {row row' row'' : UserSessionRow} (lasts : Lasts row row') (lasts' : Lasts row' row'') :
    Lasts row row'' :=
  ⟨lasts'.id.trans lasts.id, lasts'.userID.trans lasts.userID, lasts'.expiresAt.trans lasts.expiresAt,
    fun revoked => lasts'.revoked (lasts.revoked revoked)⟩

def UserSessionRow.revoke (row : UserSessionRow) (now : Time) : UserSessionRow := { row with revokedAt := some now }

/-- Everything an operation can do to the sessions: open one under a new number, or revoke
some. -/
theorem exec_userSessions (executed : exec e choice op w = some (reply, w')) :
    (∃ id userID expiresAt, (⟨op, reply⟩ : Entry Reply) = ⟨.sql (.insertUserSession id userID expiresAt), .ok ()⟩ ∧
      (∀ row ∈ w.sessions, row.id ≠ id) ∧ w'.sessions = w.sessions ++ [⟨id, userID, expiresAt, none⟩]) ∨
    ∃ selected : UserSessionRow → Bool, w'.sessions = updateWhere selected (·.revoke w.now) w.sessions := by
  have unchanged (same : w'.sessions = w.sessions) :
      ∃ selected : UserSessionRow → Bool, w'.sessions = updateWhere selected (·.revoke w.now) w.sessions :=
    ⟨fun _ => false, by rw [same]; simp [updateWhere]⟩
  cases op with
  | sql statement =>
      rcases exec_sql executed with ⟨_, rfl⟩ | ⟨value, rfl, ran⟩
      · exact .inr (unchanged rfl)
      · cases statement with
        | insertUserSession id userID expiresAt =>
            simp only [runSql] at ran
            split at ran
            · cases ran
            · next new =>
              split at ran
              · cases ran
                simp only [List.any_eq_true, decide_eq_true_eq, not_exists, not_and] at new
                exact .inl ⟨id, userID, expiresAt, rfl, new, rfl⟩
              · cases ran
        | revokeUserSession id =>
            cases ran
            exact .inr ⟨_, rfl⟩
        | insertPasswordUser | insertGoogleUser =>
            simp only [runSql, World.insertUser] at ran
            split at ran
            · cases ran
            · split at ran <;> cases ran
              exact .inr (unchanged rfl)
        | insertToken | revokeToken =>
            simp only [runSql] at ran
            repeat' split at ran
            all_goals cases ran
            all_goals exact .inr (unchanged rfl)
        | _ =>
            cases ran
            exact .inr (unchanged rfl)
  | _ =>
      apply Or.inr (unchanged _)
      simp only [exec] at executed
      repeat' split at executed
      all_goals first | cases executed; rfl | cases executed

theorem lasts_updated {selected : UserSessionRow → Bool} {now : Time} {rows : List UserSessionRow}
    {row : UserSessionRow} (member : row ∈ rows) :
    ∃ row' ∈ updateWhere selected (·.revoke now) rows, Lasts row row' := by
  rcases updateWhere_mem selected (fun row => row.revoke now) member with ⟨_, revoked⟩ | ⟨_, kept⟩
  · exact ⟨_, revoked, rfl, rfl, rfl, fun _ => rfl⟩
  · exact ⟨row, kept, Lasts.refl row⟩

theorem SessionsKeyed.exec (keyed : SessionsKeyed w) (executed : exec e choice op w = some (reply, w')) :
    SessionsKeyed w' := by
  unfold SessionsKeyed at keyed ⊢
  rcases exec_userSessions executed with ⟨id, userID, expiresAt, _, new, added⟩ | ⟨selected, same⟩
  · rw [added, List.map_append, List.nodup_append]
    refine ⟨keyed, by simp, ?_⟩
    intro number among other only same
    obtain ⟨row, member, rfl⟩ := List.mem_map.mp among
    simp only [List.map_cons, List.map_nil, List.mem_singleton] at only
    exact new row member (same.trans only)
  · have ids : w'.sessions.map UserSessionRow.id = w.sessions.map UserSessionRow.id := by
      rw [same, updateWhere, List.map_map]
      apply List.map_congr_left
      intro row _
      simp only [Function.comp_apply]
      split <;> rfl
    rw [ids]
    exact keyed

theorem session_lasts (executed : exec e choice op w = some (reply, w')) {row : UserSessionRow}
    (member : row ∈ w.sessions) : ∃ row' ∈ w'.sessions, Lasts row row' := by
  rcases exec_userSessions executed with ⟨_, _, _, _, _, added⟩ | ⟨selected, same⟩
  · rw [added]
    exact ⟨row, List.mem_append_left _ member, Lasts.refl row⟩
  · rw [same]
    exact lasts_updated member

theorem exec_revokeUserSession {row : UserSessionRow}
    (executed : exec e choice (.sql (.revokeUserSession row.id)) w = some (.ok (), w')) (member : row ∈ w.sessions) :
    ∃ row' ∈ w'.sessions, Lasts row row' ∧ row'.revokedAt.isSome = true := by
  rcases exec_sql executed with ⟨⟨_, failed⟩, _⟩ | ⟨value, _, ran⟩
  · cases failed
  · cases ran
    rcases updateWhere_mem (fun old => old.id = row.id && old.revokedAt.isNone)
      (fun old => { old with revokedAt := some w.now }) member with ⟨_, revoked⟩ | ⟨kept, same⟩
    · exact ⟨_, revoked, ⟨rfl, rfl, rfl, fun _ => rfl⟩, rfl⟩
    · refine ⟨row, same, Lasts.refl row, ?_⟩
      simpa using kept

theorem exec_userSessionLive {id : String} {userID : Int64}
    (executed : exec e choice (.sql (.userSessionLive id userID)) w = some (.ok true, w')) :
    ∃ row ∈ w.sessions, row.id = id ∧ row.userID = userID ∧ row.revokedAt = none ∧ w.now < row.expiresAt := by
  rcases exec_sql executed with ⟨⟨_, failed⟩, _⟩ | ⟨value, same, ran⟩
  · cases failed
  · cases same
    simp only [runSql, Except.ok.injEq, Prod.mk.injEq, List.any_eq_true, Bool.and_eq_true, decide_eq_true_eq,
      Option.isNone_iff_eq_none] at ran
    obtain ⟨⟨row, member, same, own, open', unexpired⟩, _⟩ := ran
    exact ⟨row, member, same, own, open', unexpired⟩

end Sessions
end Payknot.Accounts

namespace Payknot.Server
open GoText Interleaving Machine

variable {e : Environment} {init cfg after : Service} {label : ServiceLabel}

section Logins

def Request.isAccount : Request → Bool
  | .account _ => true
  | _ => false

/-- A session is opened by an account request that has identified its user. -/
def Opens (e : Environment) (request : Request) (log : Log Reply) : Op → Prop
  | .accounts (.sql (.insertUserSession _ userID expiresAt)) =>
      ∃ r seen, request = .account r ∧ seen.map (Entry.lift Op.accounts) <:+ log ∧
        Accounts.Identified e.accounts r seen userID ∧
        ∃ now, log.Saw (.accounts .now) now ∧ expiresAt = now + Accounts.sessionTTL
  | _ => True

-- No route but those of the accounts opens a session.
theorem opens_of_may {request : Request} {log : Log Reply} {op : Op} (other : request.isAccount = false)
    (may : request.May op) : Opens e request log op := by
  cases op with
  | accounts part =>
      cases part with
      | sql statement =>
          cases statement with
          | insertUserSession =>
              cases request with
              | account => cases other
              | _ => cases may
          | _ => trivial
      | _ => trivial
  | _ => trivial

theorem opens_handler (request : Request) :
    (handler e request).Along (Opens e request) (fun _ _ => True) [] := by
  by_cases other : request.isAccount = false
  · exact (within_handler request []).mono (fun _ _ may => opens_of_may other may) fun _ _ _ => trivial
  · cases request with
    | account r =>
        have lifted : (accounts (Accounts.handler e.accounts r)).Along (Opens e (.account r))
            (fun _ _ => True) [] := by
          refine ((Accounts.opens_handler r).lift Op.accounts []).mono ?_ fun _ _ _ => trivial
          rintro _ _ ⟨part, seen, rfl, rfl, opens⟩
          rw [List.append_nil]
          cases part with
          | sql statement =>
              cases statement with
              | insertUserSession id userID expiresAt =>
                  obtain ⟨identified, now, saw, expiry⟩ := opens
                  exact ⟨r, seen, rfl, List.suffix_refl _, identified, now, Log.Saw.lift Op.accounts saw, expiry⟩
              | _ => trivial
          | _ => trivial
        refine lifted.sequence fun log answer _ _ => ?_
        rw [Program.along_pure]
        trivial
    | _ => exact absurd rfl other

end Logins

section Steps
variable {choice : Choice} {op : Op} {reply : Reply op} {w w' : World}

/-- An operation of the accounts runs in their part of the world, by the server's clock. -/
theorem exec_accounts {part : Accounts.Op} {answer : Accounts.Reply part}
    (executed : (machine e).exec choice (.accounts part) w = some (answer, w')) :
    Accounts.exec e.accounts ⟨choice.fault, choice.text, choice.google⟩ part { w.accounts with now := w.now } =
      some (answer, w'.accounts) := by
  simp only [machine, exec, Option.map_eq_some_iff] at executed
  obtain ⟨⟨_, accounts⟩, ran, delivered⟩ := executed
  obtain ⟨rfl, rfl⟩ := Prod.mk.inj delivered
  exact ran

theorem exec_loginSessions (executed : exec e choice op w = some (reply, w')) :
    (∃ id userID expiresAt, (⟨op, reply⟩ : Entry Reply) =
        ⟨.accounts (.sql (.insertUserSession id userID expiresAt)), .ok ()⟩ ∧
      w'.accounts.sessions = w.accounts.sessions ++ [⟨id, userID, expiresAt, none⟩]) ∨
    ∃ selected now, w'.accounts.sessions = updateWhere selected (·.revoke now) w.accounts.sessions := by
  rcases accounts_embed.performed executed with same | ⟨part, answer, _, entry, ran⟩
  · exact .inr ⟨fun _ => false, 0, by rw [same]; simp [updateWhere]⟩
  · rcases Accounts.exec_userSessions ran with ⟨id, userID, expiresAt, inserted, _, added⟩ | ⟨selected, revoked⟩
    · cases inserted
      exact .inl ⟨id, userID, expiresAt, entry, added⟩
    · exact .inr ⟨selected, _, revoked⟩

/-- `user_sessions`, whose rows are opened by an INSERT. -/
def loginSessions (e : Environment) : Table (machine e) Accounts.UserSessionRow where
  rows w := w.accounts.sessions
  origin entry row := entry =
    ⟨.accounts (.sql (.insertUserSession row.id row.userID row.expiresAt)), (.ok () : Except Fault Unit)⟩
  performed := by
    intro choice op w reply after executed row member
    rcases exec_loginSessions (e := e) executed with ⟨id, userID, expiresAt, entry, added⟩ | ⟨selected, now, revoked⟩
    · rw [added] at member
      rcases List.mem_append.mp member with old | new
      · exact .inl ⟨row, old, fun _ origin => origin⟩
      · cases List.mem_singleton.mp new
        exact .inr entry
    · rw [revoked] at member
      obtain ⟨old, among, ⟨_, rfl⟩ | ⟨_, rfl⟩⟩ := mem_updateWhere member
      · exact .inl ⟨old, among, fun _ origin => origin⟩
      · exact .inl ⟨row, among, fun _ origin => origin⟩
  occurred := by
    intro event w after occurred
    obtain ⟨_, _, rfl⟩ := Option.map_eq_some_iff.mp occurred
    rfl

theorem sessionsKeyed_reached {first last : Service} (keyed : Accounts.SessionsKeyed first.world.accounts)
    (run : (machine e).Reaches anyStep first last) : Accounts.SessionsKeyed last.world.accounts := by
  apply run.invariant (fun cfg => Accounts.SessionsKeyed cfg.world.accounts) keyed
  intro cfg label after held _ stepped
  rcases step_accounts stepped with same | ⟨_, _, _, executed⟩
  · rw [same]
    exact held
  · exact Accounts.SessionsKeyed.exec (w := { cfg.world.accounts with now := cfg.world.now }) held executed

theorem session_reached {first last : Service} (run : (machine e).Reaches anyStep first last)
    {row : Accounts.UserSessionRow} (member : row ∈ first.world.accounts.sessions) :
    ∃ row' ∈ last.world.accounts.sessions, Accounts.Lasts row row' := by
  apply run.invariant (fun cfg => ∃ row' ∈ cfg.world.accounts.sessions, Accounts.Lasts row row')
    ⟨row, member, Accounts.Lasts.refl row⟩
  rintro cfg label after ⟨row', present, lasts⟩ _ stepped
  rcases step_accounts stepped with same | ⟨_, _, _, executed⟩
  · rw [same]
    exact ⟨row', present, lasts⟩
  · obtain ⟨row'', present, later⟩ := Accounts.session_lasts executed present
    exact ⟨row'', present, lasts.trans later⟩

end Steps

section Authentication

def Request.cookie : Request → Option String
  | .me c | .events c _ | .eventsSubroutes c _ | .importLuma c _ => c.cookie
  | .agentKeys cookie _ _ | .revokeAgentKey cookie _ => cookie
  | .account (.pats cookie _) | .account (.revokePAT cookie _) => cookie
  | _ => none

/-- The request has been let in by its cookie, under these claims. -/
def SignedIn (e : Environment) (thread : ServiceThread) (claims : Accounts.UserClaims) : Prop :=
  ∃ before seen, Follows (accounts (Accounts.sessionClaimsFromRequest e.accounts thread.request.cookie)) before
    (some claims) seen ∧ seen <:+ thread.log

theorem SignedIn.live {thread : ServiceThread} {claims : Accounts.UserClaims} (signed : SignedIn e thread claims) :
    thread.log.Saw (.accounts (.sql (.userSessionLive claims.sessionID claims.userID))) (.ok true) := by
  obtain ⟨before, seen, follows, within⟩ := signed
  obtain ⟨part, rfl, live⟩ := ((Accounts.along_live thread.request.cookie).lift Op.accounts before).follows follows
  exact within.subset (List.mem_append_left _ (Log.Saw.lift Op.accounts (live claims rfl)))

def LoggedOut (thread : ServiceThread) (sessionID : String) : Prop :=
  (∃ cookie, thread.request = .account (.logout .post cookie)) ∧
    thread.log.Saw (.accounts (.sql (.revokeUserSession sessionID))) (.ok ())

/-- The session has expired, or a logout that came after it was there has closed it. -/
def SessionEnded (first last : Service) (row : Accounts.UserSessionRow) : Prop :=
  row.expiresAt ≤ last.world.now ∨
    ∃ index thread, first.threads.length ≤ index ∧ last.threads[index]? = some thread ∧ LoggedOut thread row.id

def Over (sessionID : String) (w : World) : Prop :=
  ∃ row ∈ w.accounts.sessions, row.id = sessionID ∧ (row.revokedAt.isSome = true ∨ row.expiresAt ≤ w.now)

theorem Over.reached {sessionID : String} {first last : Service} (is_over : Over sessionID first.world)
    (run : (machine e).Reaches anyStep first last) : Over sessionID last.world := by
  obtain ⟨row, member, rfl, ended⟩ := is_over
  obtain ⟨row', present, lasts⟩ := session_reached run member
  refine ⟨row', present, lasts.id, ?_⟩
  rcases ended with revoked | expired
  · exact .inl (lasts.revoked revoked)
  · rw [lasts.expiresAt]
    exact .inr (le_trans expired (clock_reached run))

theorem SessionEnded.is_over {first last : Service} {row : Accounts.UserSessionRow} (ended : SessionEnded first last row)
    (run : (machine e).Reaches anyStep first last) (member : row ∈ first.world.accounts.sessions) :
    Over row.id last.world := by
  rcases ended with expired | ⟨index, thread, late, found, _, saw⟩
  · obtain ⟨row', present, lasts⟩ := session_reached run member
    refine ⟨row', present, lasts.id, .inr ?_⟩
    rw [lasts.expiresAt]
    exact expired
  · obtain ⟨middle, _, after, choice, before, _, executed, since⟩ := run.performed late found saw
    obtain ⟨row', present, lasts⟩ := session_reached before member
    have ran := exec_accounts executed
    rw [← lasts.id] at ran
    obtain ⟨row'', present, lasts', revoked⟩ := Accounts.exec_revokeUserSession ran present
    have closed : Over row.id after.world := ⟨row'', present, lasts'.id.trans lasts.id, .inl revoked⟩
    exact closed.reached since

theorem Over.unseen {sessionID : String} {last final : Service} (is_over : Over sessionID last.world)
    (keyed : Accounts.SessionsKeyed last.world.accounts) (run : (machine e).Reaches anyStep last final) {index : Nat}
    {thread : ServiceThread} (late : last.threads.length ≤ index) (found : final.threads[index]? = some thread)
    {userID : Int64} :
    ¬ thread.log.Saw (.accounts (.sql (.userSessionLive sessionID userID))) (.ok true) := by
  intro saw
  obtain ⟨middle, _, _, choice, before, _, executed, _⟩ := run.performed late found saw
  obtain ⟨row, member, same, ended⟩ := is_over.reached before
  obtain ⟨row', member', same', _, unrevoked, unexpired⟩ :=
    Accounts.exec_userSessionLive (exec_accounts executed)
  cases List.inj_on_of_nodup_map (sessionsKeyed_reached keyed before) member member' (same.trans same'.symm)
  rcases ended with revoked | expired
  · rw [unrevoked] at revoked
    cases revoked
  · exact absurd unexpired (not_lt_of_ge expired)

/-- The login that opened the session of these claims, having identified their user. -/
def Began (e : Environment) (login : ServiceThread) (claims : Accounts.UserClaims) : Prop :=
  ∃ r seen now, login.request = .account r ∧ seen.map (Entry.lift Op.accounts) <:+ login.log ∧
    Accounts.Identified e.accounts r seen claims.userID ∧ login.log.Saw (.accounts .now) now ∧
    login.log.Saw (.accounts (.sql
      (.insertUserSession claims.sessionID claims.userID (now + Accounts.sessionTTL)))) (.ok ())

theorem live_began (start : init.threads = []) (none_open : init.world.accounts.sessions = [])
    (run : (machine e).Reaches anyStep init cfg) {thread : ServiceThread} (member : thread ∈ cfg.threads)
    {claims : Accounts.UserClaims}
    (live : thread.log.Saw (.accounts (.sql (.userSessionLive claims.sessionID claims.userID))) (.ok true)) :
    ∃ login ∈ cfg.threads, Began e login claims := by
  obtain ⟨row, ⟨id, user⟩, login, here, _, saw, rfl⟩ :=
    run.found_origin (loginSessions e)
      (fun row => row.id = claims.sessionID ∧ row.userID = claims.userID) start none_open
      member live (by
        intro choice w after executed
        obtain ⟨row, listed, id, user, _⟩ := Accounts.exec_userSessionLive (exec_accounts executed)
        exact ⟨row, listed, id, user⟩)
  rw [id, user] at saw
  obtain ⟨earlier, within, opens⟩ := (run.justified opens_handler start).saw here saw
  obtain ⟨r, seen, request, from_seen, identified, now, read, expiry⟩ := opens
  rw [expiry] at saw
  exact ⟨login, here, r, seen, now, request, from_seen.trans within, identified, read.mono within, saw⟩

/-- Any interleaving of requests to the whole server. Whoever is let in by a session cookie
is let in under a session that a login opened, and that login had identified the user: by
the password of a verified password account, or by Google. -/
theorem sessions_from_logins (start : init.threads = []) (none_open : init.world.accounts.sessions = [])
    (run : (machine e).Reaches anyStep init cfg) {thread : ServiceThread} (member : thread ∈ cfg.threads)
    {claims : Accounts.UserClaims} (signed : SignedIn e thread claims) :
    ∃ login ∈ cfg.threads, ∃ r seen now, login.request = .account r ∧
      seen.map (Entry.lift Op.accounts) <:+ login.log ∧ Accounts.Identified e.accounts r seen claims.userID ∧
      login.log.Saw (.accounts .now) now ∧ login.log.Saw (.accounts (.sql (.insertUserSession claims.sessionID
        claims.userID (now + Accounts.sessionTTL)))) (.ok ()) :=
  live_began start none_open run member signed.live

def AnsweredLogout (thread : ServiceThread) (cookie : Option String) : Prop :=
  thread.request = .account (.logout .post cookie) ∧ ∃ answer, thread.program = .ret answer

/-- A logout whose cookie reads as claims has asked for the end of their session. -/
def RevokesRead (e : Environment) (request : Request) (log : Log Reply) (_ : Answer) : Prop :=
  ∀ cookie, request = .account (.logout .post cookie) → ∀ claims seen,
    Follows (accounts (Accounts.getClaimsFromRequest e.accounts cookie)) [] (some claims) seen → seen <:+ log →
      ∃ reply, log.Saw (.accounts (.sql (.revokeUserSession claims.sessionID))) reply

theorem along_revokes (request : Request) :
    (handler e request).Along (fun _ _ => True) (RevokesRead e request) [] := by
  by_cases logout : ∃ cookie, request = .account (.logout .post cookie)
  · obtain ⟨cookie, rfl⟩ := logout
    change (accounts (Accounts.logout e.accounts .post cookie) >>= fun answer => pure (Answer.accounts answer)).Along
      _ _ []
    refine (((Accounts.along_logout_revokes cookie).lift Op.accounts []).mono (fun _ _ _ => trivial)
      fun _ _ held => held).sequence fun log answer _ held => ?_
    obtain ⟨whole, rfl, claims, seen, follows, within, asked⟩ := held
    rw [Program.along_pure]
    rintro _ ⟨⟩ claims' seen' follows' within'
    rw [List.append_nil] at within' ⊢
    have lifted : Follows (accounts (Accounts.getClaimsFromRequest e.accounts cookie)) [] claims
        (seen.map (Entry.lift Op.accounts)) := @Follows.lift _ _ Reply _ Op.accounts _ _ _ _ follows
    cases lifted.unique follows' (within.map _) within'
    obtain ⟨reply, saw⟩ := asked claims' rfl
    exact ⟨reply, Log.Saw.lift Op.accounts saw⟩
  · refine (Program.along_any _ []).mono (fun _ _ _ => trivial) fun _ _ _ cookie same => ?_
    exact absurd ⟨cookie, same⟩ logout

/-- Any interleaving. A logout whose cookie reads as claims asks the store to close their
session; once a logout has closed a session, or its thirty days are over, no request that
comes later is let in under it. -/
theorem sessions_end (start : init.threads = []) (keyed : Accounts.SessionsKeyed init.world.accounts)
    (run : (machine e).Reaches anyStep init cfg) :
    (∀ thread ∈ cfg.threads, ∀ cookie, AnsweredLogout thread cookie → ∀ claims seen,
      Follows (accounts (Accounts.getClaimsFromRequest e.accounts cookie)) [] (some claims) seen →
        seen <:+ thread.log →
          LoggedOut thread claims.sessionID ∨
            ∃ fault, thread.log.Saw (.accounts (.sql (.revokeUserSession claims.sessionID))) (.error fault)) ∧
    ∀ row ∈ cfg.world.accounts.sessions, ∀ last, (machine e).Reaches anyStep cfg last → SessionEnded cfg last row →
      ∀ final, (machine e).Reaches anyStep last final → ∀ index thread, last.threads.length ≤ index →
        final.threads[index]? = some thread → ∀ claims, SignedIn e thread claims → claims.sessionID ≠ row.id := by
  constructor
  · rintro thread member cookie ⟨request, answer, ended⟩ claims seen follows within
    have disciplined : Disciplined (fun _ _ _ => True) (RevokesRead e) cfg := by
      apply run.disciplined along_revokes
      intro thread among
      rw [start] at among
      cases among
    obtain ⟨reply, saw⟩ := disciplined.ends member ended cookie request claims seen follows within
    cases reply with
    | ok done => exact .inl ⟨⟨cookie, request⟩, saw⟩
    | error fault => exact .inr ⟨fault, saw⟩
  · rintro row member last since ended final later index thread late found claims signed same
    have is_over := ended.is_over since member
    rw [← same] at is_over
    exact is_over.unseen (sessionsKeyed_reached keyed (run.trans since)) later late found signed.live

end Authentication

section Deployment
open AgentRuntime.Agents (rawURLEncode jwtHeader)

def closed : World :=
  let w := stored []
  { w with accounts := { w.accounts with tokens := [], minted := [] } }

def signIn : List ServiceLabel :=
  [.arrive (.account (.googleLogin ⟨.post, some ⟨"credential"⟩⟩)),
    .step 0 { sound with google := .payload ⟨"", Accounts.aliceAddress, "Alice", "true"⟩ }] ++ steps 0 2 ++
    .step 0 { sound with text := some Accounts.aliceSession.sessionID } :: steps 0 2

def aliceCookie : String :=
  rawURLEncode jwtHeader ++ "." ++ rawURLEncode (Accounts.marshalClaims Accounts.aliceSession) ++ "." ++
    rawURLEncode Accounts.cookieMac

theorem aliceCookie_plain : ∀ c ∈ aliceCookie.toList, isSpace c = false := by
  intro c member
  have symbol {data : Bytes} (inside : c ∈ (rawURLEncode data).toList) : isSpace c = false := by
    obtain ⟨n, rfl⟩ := AgentRuntime.rawURLEncode_symbols inside
    exact (AgentRuntime.urlSymbol_plain n).2
  have dot (inside : c ∈ ['.']) : isSpace c = false := by
    rw [List.mem_singleton.mp inside]
    decide
  simp only [aliceCookie, String.toList_append, List.mem_append] at member
  rcases member with (((header | between) | payload) | between) | mac
  · exact symbol header
  · exact dot between
  · exact symbol payload
  · exact dot between
  · exact symbol mac

theorem aliceCookie_trimmed : trimSpace aliceCookie = aliceCookie :=
  trimSpace_self (fun c first => aliceCookie_plain c (List.mem_of_mem_head? first))
    fun c last => aliceCookie_plain c (List.mem_of_getLast? last)

theorem aliceCookie_texts :
    (AgentRuntime.Agents.urlEncode (Accounts.marshalClaims Accounts.aliceSession)).take 6 = "eyJzdW".toList ∧
    (AgentRuntime.Agents.urlEncode jwtHeader).take 6 = "eyJhbG".toList ∧
    (AgentRuntime.Agents.urlEncode Accounts.cookieMac).take 6 = "oz5Nm_".toList ∧
    Accounts.jwtSecret environment.accounts ≠ "" := by
  decide +kernel

theorem aliceCookie_claims : Accounts.signedClaims environment.accounts aliceCookie = some Accounts.aliceSession := by
  obtain ⟨payload, header, mac, secret⟩ := aliceCookie_texts
  have apart {data other : Bytes} {front back : List Char}
      (starts : (AgentRuntime.Agents.urlEncode data).take 6 = front)
      (starts' : (AgentRuntime.Agents.urlEncode other).take 6 = back) (different : front ≠ back) :
      rawURLEncode data ≠ rawURLEncode other := by
    intro same
    rw [← starts, ← starts', String.ofList_injective same] at different
    exact different rfl
  have mac_payload := apart mac payload (by decide)
  have header_payload := apart header payload (by decide)
  have header_mac := apart header mac (by decide)
  have signed : Accounts.tokenSignature environment.accounts (rawURLEncode jwtHeader ++ "." ++
      rawURLEncode (Accounts.marshalClaims Accounts.aliceSession)) = Accounts.cookieMac := if_pos rfl
  have read_mac : environment.accounts.rawURLDecode (rawURLEncode Accounts.cookieMac) = some Accounts.cookieMac :=
    (if_neg mac_payload).trans (if_pos rfl)
  have read_header : environment.accounts.rawURLDecode (rawURLEncode jwtHeader) = some jwtHeader :=
    (if_neg header_payload).trans ((if_neg header_mac).trans (if_pos rfl))
  have read_payload : environment.accounts.rawURLDecode
      (rawURLEncode (Accounts.marshalClaims Accounts.aliceSession)) =
      some (Accounts.marshalClaims Accounts.aliceSession) := if_pos rfl
  rw [Accounts.signedClaims, if_neg secret, aliceCookie, split_dotted (rawURLEncode_dotless _)
    (rawURLEncode_dotless _) (rawURLEncode_dotless _)]
  dsimp only
  have alg : (some jwtHeader).bind environment.accounts.unmarshalAlg = some "HS256" := if_pos rfl
  have read_claims : (some (Accounts.marshalClaims Accounts.aliceSession)).bind environment.accounts.unmarshalClaims =
      some Accounts.aliceSession := if_pos rfl
  rw [signed, if_pos read_mac, read_header, read_payload, if_pos alg]
  exact read_claims

abbrev Performed : (op : Op) → World → Reply op → World → Prop := (machine environment).performing fun _ => True

-- A request arrives and is served alone, whoever else is waiting.
theorem served_alone {cfg : Service} {request : Request} {answer : Answer} {w : World} {log : Log Reply}
    (traced : Traces Performed (handler environment request) cfg.world [] answer w log) :
    (machine environment).Reaches anyStep cfg ⟨w, cfg.threads ++ [⟨request, log, .ret answer⟩]⟩ := by
  have arrived : (machine environment).Reaches anyStep cfg
      ⟨cfg.world, cfg.threads ++ [⟨request, [], handler environment request⟩]⟩ :=
    .tail (.arrive request) (.refl cfg) trivial rfl
  exact arrived.trans (traces_reaches traced cfg.threads request).any

def isLogin (w : World) : Prop := w.now = 63889596800 * second

theorem aliceCookie_parsed : Accounts.parseAndVerifyJWT environment.accounts (trimSpace aliceCookie) =
    Accounts.timeNow >>= fun now =>
      if Accounts.aliceSession.expiresAt ≤ unix now then pure none else pure (some Accounts.aliceSession) := by
  have proper : ¬ (Accounts.aliceSession.userID ≤ 0 ∨ trimSpace Accounts.aliceSession.email = "" ∨
      trimSpace Accounts.aliceSession.sessionID = "") := by decide +kernel
  rw [aliceCookie_trimmed, Accounts.parseAndVerifyJWT, aliceCookie_claims]
  simp only [if_neg proper]

theorem aliceCookie_read {w : World} (clock : isLogin w) (log : Log Reply) :
    Traces Performed (accounts (Accounts.getClaimsFromRequest environment.accounts (some aliceCookie))) w log
      (some Accounts.aliceSession) { w with accounts := { w.accounts with now := w.now } }
      (⟨.accounts .now, w.now⟩ :: log) := by
  have unexpired : ¬ Accounts.aliceSession.expiresAt ≤ unix w.now := by
    rw [clock]
    decide
  rw [Accounts.getClaimsFromRequest, aliceCookie_parsed]
  refine Traces.call ⟨sound, trivial, rfl⟩ ?_
  simp only [Program.bind, if_neg unexpired]
  exact .ret _ _ _

def isOpen (w : World) : Bool :=
  w.accounts.sessions.any fun row => row.id = Accounts.aliceSession.sessionID &&
    (row.userID = Accounts.aliceSession.userID && (row.revokedAt.isNone && w.now < row.expiresAt))

def World.timed (w : World) : World := { w with accounts := { w.accounts with now := w.now } }

def admittedLog (w : World) : Log Reply :=
  [⟨.accounts (.sql (.userSessionLive Accounts.aliceSession.sessionID Accounts.aliceSession.userID)), .ok true⟩,
    ⟨.accounts .now, w.now⟩]

theorem session_looked_up (w : World) :
    exec environment sound (.accounts (.sql (.userSessionLive Accounts.aliceSession.sessionID
      Accounts.aliceSession.userID))) w.timed = some (.ok (isOpen w), w.timed) := by
  simp only [exec, Accounts.exec, sound, Accounts.runSql]
  rfl

theorem aliceCookie_admitted {w : World} (clock : isLogin w) (opened : isOpen w = true) :
    Traces Performed (accounts (Accounts.sessionClaimsFromRequest environment.accounts (some aliceCookie))) w []
      (some Accounts.aliceSession) w.timed (admittedLog w) := by
  unfold Accounts.sessionClaimsFromRequest accounts
  rw [Program.lift_bind]
  have executed := session_looked_up w
  rw [opened] at executed
  exact (aliceCookie_read clock []).bind (.call ⟨sound, trivial, executed⟩ (.ret _ _ _))

def refusedLog (w : World) : Log Reply :=
  [⟨.accounts (.sql (.userSessionLive Accounts.aliceSession.sessionID Accounts.aliceSession.userID)), .ok false⟩,
    ⟨.accounts .now, w.now⟩]

theorem aliceCookie_refused {w : World} (clock : isLogin w) (shut : isOpen w = false) :
    Traces Performed (accounts (Accounts.sessionClaimsFromRequest environment.accounts (some aliceCookie))) w []
      none w.timed (refusedLog w) := by
  unfold Accounts.sessionClaimsFromRequest accounts
  rw [Program.lift_bind]
  have executed := session_looked_up w
  rw [shut] at executed
  exact (aliceCookie_read clock []).bind (.call ⟨sound, trivial, executed⟩ (.ret _ _ _))

def byCookie : Request := .account (.pats (some aliceCookie) ⟨.other, none⟩)

def signedIn (cfg : Service) : Bool := isOpen cfg.world && decide (cfg.world.core.now = 63889596800 * second)

-- Alice signs in and shows her cookie: it is hers by the general result.
theorem sessions_from_logins_alice : ∃ (cfg : Service) (login : ServiceThread) (r : Accounts.Request)
    (seen : Log Accounts.Reply), login ∈ cfg.threads ∧ login.request = .account r ∧
      seen.map (Entry.lift Op.accounts) <:+ login.log ∧
      Accounts.Identified environment.accounts r seen Accounts.aliceSession.userID := by
  obtain ⟨cfg, run, done⟩ := run_meets (machine environment) (fun _ _ => true) signIn ⟨closed, []⟩ signedIn
    (by decide +kernel)
  rw [signedIn, Bool.and_eq_true, decide_eq_true_eq] at done
  have admitted := aliceCookie_admitted done.2 done.1
  have handled : Traces Performed (handler environment byCookie) cfg.world []
      (.accounts (.error "Method not allowed" 405)) cfg.world.timed (admittedLog cfg.world) := by
    change Traces Performed (accounts (Accounts.requireSessionAuth environment.accounts (some aliceCookie) _) >>=
      fun answer => pure (Answer.accounts answer)) _ _ _ _ _
    unfold accounts Accounts.requireSessionAuth
    rw [Program.lift_bind, Program.bind_assoc]
    exact admitted.bind (.ret _ _ _)
  have served := run.any.trans (served_alone handled)
  have member : (⟨byCookie, admittedLog cfg.world, .ret
      (.accounts (.error "Method not allowed" 405))⟩ : ServiceThread) ∈
      cfg.threads ++ [⟨byCookie, admittedLog cfg.world, .ret
        (.accounts (.error "Method not allowed" 405))⟩] := by simp
  have signed : SignedIn environment ⟨byCookie, admittedLog cfg.world, .ret
      (.accounts (.error "Method not allowed" 405))⟩
      Accounts.aliceSession := ⟨[], _, admitted.follows, List.suffix_refl _⟩
  obtain ⟨login, present, r, seen, now, asked, from_seen, identified, _⟩ :=
    sessions_from_logins rfl rfl served member signed
  exact ⟨_, login, r, seen, present, asked, from_seen, identified⟩

/-- The deployment with alice's session open, in the minute she logged in. -/
def hers : World :=
  { closed with accounts := { closed.accounts with sessions := [⟨Accounts.aliceSession.sessionID,
      Accounts.aliceSession.userID, 63889596800 * second + Accounts.sessionTTL, none⟩] } }

def hersNoMore : World :=
  { hers with accounts := { hers.accounts with
      sessions := Accounts.revokeSessions Accounts.aliceSession.sessionID hers.now hers.accounts.sessions
      now := hers.now } }

def logsOut : Request := .account (.logout .post (some aliceCookie))

def loggedOut : ServiceThread :=
  ⟨logsOut, [⟨.accounts (.sql (.revokeUserSession Accounts.aliceSession.sessionID)), .ok ()⟩, ⟨.accounts .now,
    hers.now⟩],
    .ret (.accounts .loggedOut)⟩

theorem loggedOut_traced :
    Traces Performed (handler environment logsOut) hers [] (.accounts .loggedOut) hersNoMore loggedOut.log := by
  change Traces Performed (accounts (Accounts.logout environment.accounts .post (some aliceCookie)) >>=
    fun answer => pure (Answer.accounts answer)) _ _ _ _ _
  have clock : isLogin hers := rfl
  have named : ¬ trimSpace Accounts.aliceSession.sessionID = "" := by decide +kernel
  unfold accounts Accounts.logout
  rw [if_neg (by simp), Program.lift_bind, Program.bind_assoc]
  refine (aliceCookie_read clock []).bind ?_
  simp only [Accounts.revokeSession, if_neg named]
  exact .call ⟨sound, trivial, rfl⟩ (.ret _ _ _)

def shutOut : ServiceThread :=
  ⟨byCookie, refusedLog hersNoMore, .ret (.accounts Accounts.unauthorized)⟩

theorem shutOut_traced : Traces Performed (handler environment byCookie) hersNoMore []
    (.accounts Accounts.unauthorized) hersNoMore.timed shutOut.log := by
  have refused := aliceCookie_refused (show isLogin hersNoMore from rfl) (by decide +kernel)
  change Traces Performed (accounts (Accounts.requireSessionAuth environment.accounts (some aliceCookie) _) >>=
    fun answer => pure (Answer.accounts answer)) _ _ _ _ _
  unfold accounts Accounts.requireSessionAuth
  rw [Program.lift_bind, Program.bind_assoc]
  exact refused.bind (.ret _ _ _)

/-- Alice logs out and shows her cookie once more: the logout has closed her session, and
she is answered 401. -/
theorem sessions_end_alice : ∃ (last final : Service) (logout thread : ServiceThread),
    (machine environment).Reaches anyStep ⟨hers, []⟩ last ∧ (machine environment).Reaches anyStep last final ∧
    final.threads[0]? = some logout ∧ LoggedOut logout Accounts.aliceSession.sessionID ∧
    final.threads[1]? = some thread ∧ thread.request = byCookie ∧
    thread.program = .ret (.accounts Accounts.unauthorized) ∧ ∀ claims, SignedIn environment thread claims →
      claims.sessionID ≠ Accounts.aliceSession.sessionID := by
  have since : (machine environment).Reaches anyStep ⟨hers, []⟩ ⟨hersNoMore, [loggedOut]⟩ :=
    (@traces_serves _ _ _ _ _ _ _ _ _ ⟨hers, []⟩ logsOut _ _ _ rfl loggedOut_traced).any
  have served : (machine environment).Reaches anyStep ⟨hersNoMore, [loggedOut]⟩
      ⟨hersNoMore.timed, [loggedOut, shutOut]⟩ :=
    @served_alone ⟨hersNoMore, [loggedOut]⟩ _ _ _ _ shutOut_traced
  have keyed : Accounts.SessionsKeyed hers.accounts := List.nodup_singleton _
  have closed : LoggedOut loggedOut Accounts.aliceSession.sessionID := by
    have read := (aliceCookie_read (show isLogin hers from rfl) []).follows
    rcases (sessions_end rfl keyed (since.trans served)).1 loggedOut List.mem_cons_self (some aliceCookie)
      ⟨rfl, _, rfl⟩ _ _ read ⟨[_], rfl⟩ with out | ⟨fault, failed⟩
    · exact out
    · simp [loggedOut, Log.Saw] at failed
  have ended (row : Accounts.UserSessionRow) (same : row.id = Accounts.aliceSession.sessionID) :
      SessionEnded ⟨hers, []⟩ ⟨hersNoMore, [loggedOut]⟩ row :=
    .inr ⟨0, loggedOut, le_refl _, rfl, same ▸ closed⟩
  refine ⟨_, _, loggedOut, shutOut, since, served, rfl, closed, rfl, rfl, rfl, fun claims signed => ?_⟩
  exact (sessions_end rfl keyed (.refl _)).2 _ (List.mem_singleton_self _) _ since (ended _ rfl) _ served 1 _
    (le_refl _) rfl claims signed

end Deployment

end Payknot.Server
