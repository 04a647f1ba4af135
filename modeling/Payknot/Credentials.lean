import Payknot.LoginSessions
import Payknot.EventPrivacy
import Payknot.KeyOwnership

/-! Where the credentials of the hosts' routes come from. A personal access token is made, and
an agent's key registered, under a live login session; so whoever these routes let in goes
back to a login, or to a key of the server's own configuration. -/
namespace Payknot.Accounts
open GoText Interleaving Machine

variable {e : Environment} {request : Request} {log : Log Reply}

section Making

/-- A token is made for the user of a live session, from a secret drawn for it. -/
def Makes (e : Environment) (request : Request) (log : Log Reply) : Op → Prop
  | .sql (.insertToken token) => ∃ cookie r claims seen secret, request = .pats cookie r ∧
      Follows (sessionClaimsFromRequest e cookie) [] (some claims) seen ∧ seen <:+ log ∧
        token.userID = claims.userID ∧
      log.Saw (.randomHex 24) (some secret) ∧ token.tokenHash = hashToken e ("pkt_pat_" ++ secret)
  | _ => True

theorem makes_of_looksUp {op : Op} (looks : op.looksUp = true) : Makes e request log op := by
  cases op with
  | sql statement =>
      cases statement with
      | insertToken => cases looks
      | _ => trivial
  | _ => trivial

theorem makes_of_may {op : Op} (other : request.makesToken = false) (may : request.May op) :
    Makes e request log op := by
  cases op with
  | sql statement =>
      cases statement with
      | insertToken =>
          rw [Request.May, Request.may, other] at may
          cases may
      | _ => trivial
  | _ => trivial

theorem within_tokenExpiry (days : Int64) : Within LooksUp (tokenExpiry days) := by
  unfold tokenExpiry timeNow
  split
  · exact .pure _
  · exact .bind (.perform rfl) fun now => .pure _

theorem makes_create {cookie : Option String} {r : HttpRequest AgentPATCreateRequest} {claims : UserClaims}
    (follows : Follows (sessionClaimsFromRequest e cookie) [] (some claims) log)
      (body : Option AgentPATCreateRequest) :
    (createAgentPAT e claims body).Along (Makes e (.pats cookie r)) (fun _ _ => True) log := by
  unfold createAgentPAT randomHex newUUID sql timeNow
  split
  · dsimp only
    split
    · rw [Program.along_pure]
      trivial
    · split
      · rw [Program.along_pure]
        trivial
      · rw [Program.along_perform_bind]
        refine ⟨trivial, fun drawn => ?_⟩
        cases drawn with
        | none =>
            dsimp only
            rw [Program.along_pure]
            trivial
        | some secret =>
            dsimp only
            rw [Program.along_perform_bind]
            refine ⟨trivial, fun tokenID => ?_⟩
            -- The expiry may read the clock, so the secret's entry is somewhere below.
            refine ((within_tokenExpiry _).tracks (fun _ _ => makes_of_looksUp) _).sequence
                fun log expiresAt _ ⟨grown, _⟩ => ?_
            rw [Program.along_perform_bind]
            constructor
            · refine ⟨cookie, r, claims, _, secret, rfl, follows, ?_, rfl, ?_, rfl⟩
              · exact ((List.suffix_cons _ _).trans (List.suffix_cons _ _)).trans grown
              · exact grown.subset (List.mem_cons_of_mem _ List.mem_cons_self)
            · intro inserted
              cases inserted with
              | error fault =>
                  dsimp only
                  rw [Program.along_pure]
                  trivial
              | ok done =>
                  dsimp only
                  rw [Program.along_perform_bind]
                  refine ⟨trivial, fun createdAt => ?_⟩
                  rw [Program.along_pure]
                  trivial
  · rw [Program.along_pure]
    trivial

theorem makes_pats (cookie : Option String) (r : HttpRequest AgentPATCreateRequest) :
    (handler e (.pats cookie r)).Along (Makes e (.pats cookie r)) (fun _ _ => True) [] := by
  refine ((within_session cookie).tracks (fun _ _ => makes_of_looksUp) []).sequence
      fun log claims _ ⟨_, follows⟩ => ?_
  cases claims with
  | none =>
      rw [Program.along_pure]
      trivial
  | some claims =>
      change (agentPATsRoot e claims r).Along _ _ log
      unfold agentPATsRoot
      split
      · unfold listAgentPATs sql
        rw [Program.along_perform_bind]
        refine ⟨trivial, fun rows => ?_⟩
        split <;> rw [Program.along_pure] <;> trivial
      · exact makes_create follows r.body
      · rw [Program.along_pure]
        trivial

theorem makes_handler (request : Request) :
    (handler e request).Along (Makes e request) (fun _ _ => True) [] := by
  by_cases other : request.makesToken = false
  · exact (within_handler request []).mono (fun _ _ may => makes_of_may other may) fun _ _ _ => trivial
  · cases request with
    | pats cookie r => exact makes_pats cookie r
    | _ => exact absurd rfl other

-- A token that is accepted was found by its hash.
theorem along_accepted (raw : String) : (personalAccessTokenAuthFromRaw e raw).Along (fun _ _ => True)
    (fun log found => ∀ pat, found = some pat → ∃ owner,
      log.Saw (.sql (.selectTokenOwner (hashToken e (trimSpace raw)))) (.ok (some owner)) ∧
        owner.tokenID = pat.tokenID ∧ owner.userID = pat.claims.userID ∧ owner.email = pat.claims.email) log := by
  unfold personalAccessTokenAuthFromRaw sql timeNow
  dsimp only
  split
  · rw [Program.along_pure]
    nofun
  · rw [Program.along_perform_bind]
    refine ⟨trivial, fun found => ?_⟩
    split
    · next owner =>
      rw [Program.along_perform_bind]
      refine ⟨trivial, fun now => ?_⟩
      rw [Program.along_perform_bind]
      refine ⟨trivial, fun touched => ?_⟩
      rw [Program.along_pure]
      rintro _ ⟨⟩
      exact ⟨owner, List.mem_cons_of_mem _ (List.mem_cons_of_mem _ List.mem_cons_self), rfl, rfl, rfl⟩
    · rw [Program.along_pure]
      nofun

end Making

section Tokens
variable {choice : Choice} {op : Op} {reply : Reply op} {w w' : World}

/-- Where the rows of `agent_personal_access_tokens` come from. -/
def tokenOrigin (entry : Entry Reply) (row : TokenRow) : Prop :=
  ∃ token : NewToken, token.id = row.id ∧ token.userID = row.userID ∧ token.tokenHash = row.tokenHash ∧
    entry = ⟨.sql (.insertToken token), (.ok () : Except Fault Unit)⟩

theorem tokenOrigin.updated {selected : TokenRow → Bool} {set : TokenRow → TokenRow} {rows : List TokenRow}
    {row : TokenRow} (member : row ∈ updateWhere selected set rows)
    (same : ∀ row, (set row).id = row.id ∧ (set row).userID = row.userID ∧ (set row).tokenHash = row.tokenHash) :
    ∃ old ∈ rows, ∀ entry, tokenOrigin entry old → tokenOrigin entry row := by
  obtain ⟨old, among, ⟨_, rfl⟩ | ⟨_, rfl⟩⟩ := mem_updateWhere member
  · refine ⟨old, among, ?_⟩
    rintro entry ⟨token, id, user, hash, origin⟩
    obtain ⟨id', user', hash'⟩ := same old
    exact ⟨token, id.trans id'.symm, user.trans user'.symm, hash.trans hash'.symm, origin⟩
  · exact ⟨row, among, fun _ origin => origin⟩

theorem exec_tokenRows (executed : exec e choice op w = some (reply, w')) (row : TokenRow)
    (member : row ∈ w'.tokens) :
    (∃ old ∈ w.tokens, ∀ entry, tokenOrigin entry old → tokenOrigin entry row) ∨ tokenOrigin ⟨op, reply⟩ row := by
  have unchanged (same : w'.tokens = w.tokens) :
      ∃ old ∈ w.tokens, ∀ entry, tokenOrigin entry old → tokenOrigin entry row := by
    rw [same] at member
    exact ⟨row, member, fun _ origin => origin⟩
  cases op with
  | sql statement =>
      rcases exec_sql executed with ⟨_, rfl⟩ | ⟨value, rfl, ran⟩
      · exact .inl (unchanged rfl)
      · cases statement with
        | insertToken token =>
            -- The one statement that adds a row; the two below rewrite columns no origin names.
            simp only [runSql] at ran
            repeat' split at ran
            all_goals cases ran
            rcases List.mem_append.mp member with old | new
            · exact .inl ⟨row, old, fun _ origin => origin⟩
            · cases List.mem_singleton.mp new
              exact .inr ⟨token, rfl, rfl, rfl, rfl⟩
        | touchToken id =>
            cases ran
            exact .inl (tokenOrigin.updated member fun _ => ⟨rfl, rfl, rfl⟩)
        | revokeToken text userID =>
            simp only [runSql] at ran
            split at ran
            · cases ran
            · cases ran
              exact .inl (tokenOrigin.updated member fun _ => ⟨rfl, rfl, rfl⟩)
        | insertPasswordUser | insertGoogleUser =>
            simp only [runSql, World.insertUser] at ran
            repeat' split at ran
            all_goals cases ran
            exact .inl (unchanged rfl)
        | insertUserSession =>
            simp only [runSql] at ran
            repeat' split at ran
            all_goals cases ran
            exact .inl (unchanged rfl)
        | _ =>
            cases ran
            exact .inl (unchanged rfl)
  | _ =>
      apply Or.inl (unchanged _)
      simp only [exec] at executed
      repeat' split at executed
      all_goals first | cases executed; rfl | cases executed

-- A token is found by its hash, with the user it is kept for.
theorem exec_foundToken {tokenHash : String} {owner : TokenOwner}
    (executed : exec e choice (.sql (.selectTokenOwner tokenHash)) w = some (.ok (some owner), w')) :
    ∃ row ∈ w.tokens, row.id = owner.tokenID ∧ row.userID = owner.userID ∧ row.tokenHash = tokenHash := by
  rcases exec_sql executed with ⟨⟨_, failed⟩, _⟩ | ⟨value, same, ran⟩
  · cases failed
  · cases same
    simp only [runSql, Except.ok.injEq, Prod.mk.injEq] at ran
    obtain ⟨found, _⟩ := ran
    unfold tokenOwner at found
    split at found
    · cases found
    · next row stored =>
      obtain ⟨user, of_row, rfl⟩ := Option.map_eq_some_iff.mp found
      have owns := List.find?_some of_row
      have meets := List.find?_some stored
      simp only [Bool.and_eq_true, decide_eq_true_eq] at owns meets
      exact ⟨row, List.mem_of_find?_eq_some stored, rfl, owns.symm, meets.1⟩

end Tokens
end Payknot.Accounts

namespace Payknot.AgentKeys
open GoText Interleaving

variable {e : Environment} {choice : Choice} {op : Op} {reply : Reply op} {w w' : World}

-- Whoever signs for an agent is let in under the agent's name.
theorem along_named (agentID : String) (r : SignedRequest) (log : Log Reply) :
    (verifyAgentSignature e agentID r).Along (fun _ _ => True)
      (fun _ claims => ∀ found, claims = some found → found.email = "agent:" ++ trimSpace agentID) log := by
  simp only [verifyAgentSignature]
  split
  · rw [Program.along_pure]
    intro found same
    cases same
  · refine (Program.along_any _ log).sequence fun log keys _ _ => ?_
    split
    · rw [Program.along_pure]
      intro found same
      cases same
    · refine (Program.along_any _ log).sequence fun log accepted _ _ => ?_
      split
      · unfold timeNow
        rw [Program.along_perform_bind]
        refine ⟨trivial, fun now => ?_⟩
        rw [Program.along_pure]
        rintro _ ⟨⟩
        rfl
      · rw [Program.along_pure]
        intro found same
        cases same

/-- Where the rows of `agent_api_keys` come from. -/
def keyOrigin (entry : Entry Reply) (row : KeyRow) : Prop :=
  entry = ⟨.sql (.upsertKey row.agentId row.publicKeyBase64 row.createdBy), (.ok () : Except Fault Unit)⟩

theorem exec_keyRows (executed : exec choice op w = some (reply, w')) (row : KeyRow) (member : row ∈ w'.rows) :
    (∃ old ∈ w.rows, ∀ entry, keyOrigin entry old → keyOrigin entry row) ∨ keyOrigin ⟨op, reply⟩ row := by
  rcases exec_rows executed with kept | ⟨agentID, key, createdBy, rfl, sound, written⟩ | ⟨agentID, rfl, _, written⟩
  · rw [kept] at member
    exact .inl ⟨row, member, fun _ origin => origin⟩
  · rw [written] at member
    rcases mem_upsertRow member with old | ⟨rfl, rfl, rfl⟩
    · exact .inl ⟨row, old, fun _ origin => origin⟩
    · have answer := congrArg Prod.fst (Option.some.inj executed)
      simp only [runSql, sound] at answer
      rw [← answer]
      exact .inr rfl
  · rw [written] at member
    obtain ⟨old, among, id, key, creator⟩ := mem_revokeRow member
    refine .inl ⟨old, among, fun entry origin => ?_⟩
    rw [keyOrigin, id, key, creator]
    exact origin

def World.cached (w : World) : List KeyMap := w.cache.keys.toList

def cacheOrigin (entry : Entry Reply) (keys : KeyMap) : Prop :=
  ∃ expiresAt, entry = ⟨.writeCache (some keys) expiresAt, ()⟩

theorem exec_cached (executed : exec choice op w = some (reply, w')) (keys : KeyMap) (member : keys ∈ w'.cached) :
    (∃ old ∈ w.cached, ∀ entry, cacheOrigin entry old → cacheOrigin entry keys) ∨ cacheOrigin ⟨op, reply⟩ keys := by
  unfold World.cached at member
  rcases exec_cache executed with kept | ⟨written, expiresAt, rfl, kept⟩ | ⟨rfl, kept⟩
  · rw [kept] at member
    exact .inl ⟨keys, member, fun _ origin => origin⟩
  · rw [kept, Option.mem_toList] at member
    cases (member : written = some keys)
    exact .inr ⟨expiresAt, rfl⟩
  · rw [kept] at member
    cases member

theorem exec_activeKey {rows : List (String × String)} {entry : String × String}
    (executed : exec choice (.sql .selectActiveKeys) w = some (.ok rows, w')) (member : entry ∈ rows) :
    ∃ row ∈ w.rows, (row.agentId, row.publicKeyBase64) = entry := by
  have answer := congrArg Prod.fst (Option.some.inj executed)
  simp only [runSql] at answer
  split at answer
  · cases answer
  · cases answer
    have active : entry ∈ activeKeys w.rows := by
      unfold Choice.delivered at member
      split at member
      · exact member
      · exact List.mem_of_mem_take member
    obtain ⟨row, among, same⟩ := List.mem_map.mp active
    exact ⟨row, (List.mem_filter.mp among).1, same⟩

-- A key of a refreshed map is the environment's or that of a row read.
theorem refreshed_row {answer : Except Fault (List (String × String))} {agentID : String} {key : Bytes}
    (found : lookupKey (refreshed e answer) agentID = some key) :
    lookupKey (agentPublicKeysFromEnv e) agentID = some key ∨ ∃ rows entry, answer = .ok rows ∧ entry ∈ rows ∧
      agentID = trimSpace entry.1 ∧ e.base64Decode (trimSpace entry.2) = some key := by
  cases answer with
  | error fault => exact .inl found
  | ok rows =>
      simp only [refreshed, Except.map, keysInForce] at found
      split at found
      · exact .inl found
      · obtain ⟨entry, listed, usable⟩ := mem_collectKeys.mp (lookupKey_mem found)
        obtain ⟨id, decoded⟩ := usableKey_id usable
        exact .inr ⟨rows, entry, rfl, listed, id, decoded⟩

end Payknot.AgentKeys

namespace Payknot.Server
open GoText Interleaving Machine

variable {e : Environment} {init cfg : Service} {request : Request} {log : Log Reply}

section Tokens

/-- A token is made under the session of the request that asks for it. -/
def Makes (e : Environment) (request : Request) (log : Log Reply) : Op → Prop
  | .accounts (.sql (.insertToken token)) => ∃ r seen, request = .account r ∧
      seen.map (Entry.lift Op.accounts) <:+ log ∧ Accounts.Makes e.accounts r seen (.sql (.insertToken token))
  | _ => True

theorem makes_of_may {op : Op} (other : request.isAccount = false) (may : request.May op) :
    Makes e request log op := by
  cases op with
  | accounts part =>
      cases part with
      | sql statement =>
          cases statement with
          | insertToken =>
              cases request with
              | account => cases other
              | _ => cases may
          | _ => trivial
      | _ => trivial
  | _ => trivial

theorem makes_handler (request : Request) : (handler e request).Along (Makes e request) (fun _ _ => True) [] := by
  by_cases other : request.isAccount = false
  · exact (within_handler request []).mono (fun _ _ may => makes_of_may other may) fun _ _ _ => trivial
  · cases request with
    | account r =>
        have lifted : (accounts (Accounts.handler e.accounts r)).Along (Makes e (.account r))
            (fun _ _ => True) [] := by
          refine ((Accounts.makes_handler r).lift Op.accounts []).mono ?_ fun _ _ _ => trivial
          rintro _ _ ⟨part, seen, rfl, rfl, makes⟩
          rw [List.append_nil]
          cases part with
          | sql statement =>
              cases statement with
              | insertToken token => exact ⟨r, seen, rfl, List.suffix_refl _, makes⟩
              | _ => trivial
          | _ => trivial
        refine lifted.sequence fun log answer _ _ => ?_
        rw [Program.along_pure]
        trivial
    | _ => exact absurd rfl other

def accessTokens (e : Environment) : Table (machine e) Accounts.TokenRow :=
  Table.part accounts_embed (·.tokens) Accounts.tokenOrigin (fun _ => rfl) Accounts.exec_tokenRows

def ShowsToken (e : Environment) (thread : ServiceThread) (raw : String)
    (pat : Accounts.PersonalAccessTokenAuth) : Prop :=
  ∃ before seen, Follows (accounts (Accounts.personalAccessTokenAuthFromRaw e.accounts raw)) before (some pat) seen ∧
    seen <:+ thread.log

/-- The request has made the token, for its user and from a secret drawn for it. -/
def Made (e : Environment) (maker : ServiceThread) (claims : Accounts.UserClaims) (tokenID raw : String) : Prop :=
  ∃ cookie r token secret, maker.request = .account (.pats cookie r) ∧ SignedIn e maker claims ∧
    maker.log.Saw (.accounts (.randomHex 24)) (some secret) ∧
    maker.log.Saw (.accounts (.sql (.insertToken token))) (.ok ()) ∧ token.id = tokenID ∧
    token.userID = claims.userID ∧
    Accounts.hashToken e.accounts ("pkt_pat_" ++ secret) = Accounts.hashToken e.accounts (trimSpace raw)

theorem Made.signedIn {maker : ServiceThread} {claims : Accounts.UserClaims} {tokenID raw : String}
    (made : Made e maker claims tokenID raw) : SignedIn e maker claims := by
  obtain ⟨_, _, _, _, _, signed, _⟩ := made
  exact signed

-- A token that is accepted was made in the run.
theorem tokens_made (start : init.threads = []) (none_made : init.world.accounts.tokens = [])
    (run : (machine e).Reaches anyStep init cfg) {thread : ServiceThread} (member : thread ∈ cfg.threads)
    {raw : String} {pat : Accounts.PersonalAccessTokenAuth}
    (shows : ShowsToken e thread raw pat) :
    ∃ maker ∈ cfg.threads, ∃ claims, Made e maker claims pat.tokenID raw ∧ claims.userID = pat.claims.userID := by
  obtain ⟨before, seen, follows, within⟩ := shows
  obtain ⟨part, rfl, found⟩ := ((Accounts.along_accepted raw).lift Op.accounts before).follows follows
  obtain ⟨owner, saw, number, user, _⟩ := found pat rfl
  have saw := within.subset (List.mem_append_left _ (Log.Saw.lift Op.accounts saw))
  -- The row is found by the hash of what is shown, and goes back to its INSERT.
  obtain ⟨row, ⟨id, own, hash⟩, maker, here, _, among, _, rfl, token, id', own', hash', rfl⟩ :=
    run.found_origin (accessTokens e) (fun row => row.id = owner.tokenID ∧ row.userID = owner.userID ∧
        row.tokenHash = Accounts.hashToken e.accounts (trimSpace raw)) start none_made member saw (by
      intro choice w after executed
      obtain ⟨row, listed, id, own, hash⟩ := Accounts.exec_foundToken (exec_accounts executed)
      exact ⟨row, listed, id, own, hash⟩)
  have inserted : maker.log.Saw (.accounts (.sql (.insertToken token))) (.ok ()) := among
  obtain ⟨earlier, since, r, seen, asked, from_seen, makes⟩ := (run.justified makes_handler start).saw here inserted
  obtain ⟨cookie, r, claims, session, secret, rfl, follows', session_seen, of_user, drawn, hashed⟩ := makes
  have seen_all := from_seen.trans since
  have signed : SignedIn e maker claims := by
    refine ⟨[], session.map (Entry.lift Op.accounts), ?_, (session_seen.map _).trans seen_all⟩
    rw [asked]
    exact @Follows.lift _ _ Reply _ Op.accounts _ _ _ _ follows'
  refine ⟨maker, here, claims, ⟨cookie, r, token, secret, asked, signed,
    seen_all.subset (Log.Saw.lift Op.accounts drawn), inserted, ?_, of_user, ?_⟩, ?_⟩
  · rw [id', id, number]
  · rw [← hashed, hash', hash]
  · rw [← of_user, own', own, user]

/-- Any interleaving of requests to the whole server. Whoever is let in by a personal access
token shows the hash of a secret that the server drew on a request for a token; that request
was let in by a session of the same user, and a login opened the session. -/
theorem tokens_from_logins (start : init.threads = []) (none_open : init.world.accounts.sessions = [])
    (none_made : init.world.accounts.tokens = []) (run : (machine e).Reaches anyStep init cfg)
    {thread : ServiceThread}
    (member : thread ∈ cfg.threads) {raw : String} {pat : Accounts.PersonalAccessTokenAuth}
    (shows : ShowsToken e thread raw pat) :
    ∃ maker ∈ cfg.threads, ∃ claims, Made e maker claims pat.tokenID raw ∧ claims.userID = pat.claims.userID ∧
      ∃ login ∈ cfg.threads, Began e login claims := by
  obtain ⟨maker, here, claims, made, own⟩ := tokens_made start none_made run member shows
  exact ⟨maker, here, claims, made, own, live_began start none_open run here made.signedIn.live⟩

end Tokens

section Keys

/-- An operation of the keys runs in their part of the world, by the server's clock. -/
theorem exec_keys {choice : Choice} {part : AgentKeys.Op} {answer : AgentKeys.Reply part} {w w' : World}
    (executed : (machine e).exec choice (.keys part) w = some (answer, w')) :
    AgentKeys.exec ⟨choice.fault, choice.cut⟩ part { w.keys with now := w.now } = some (answer, w'.keys) := by
  simp only [machine, exec, Option.map_eq_some_iff] at executed
  obtain ⟨⟨_, keys⟩, ran, delivered⟩ := executed
  obtain ⟨rfl, rfl⟩ := Prod.mk.inj delivered
  exact ran

/-- A key is registered by a host in a live session; the cache is filled from the table. -/
def Registers (e : Environment) (request : Request) (log : Log Reply) : Op → Prop
  | .keys (.sql (.upsertKey agentID key host)) => ∃ cookie body claims seen, request = .agentKeys cookie .post body ∧
      Follows (accounts (Accounts.sessionClaimsFromRequest e.accounts cookie)) [] (some claims) seen ∧ seen <:+ log ∧
      AgentKeys.Request.Supplies e.keys (.upsert (some ⟨claims.email⟩) body) agentID key host
  | .keys (.writeCache keys _) => ∃ reply, log.Saw (.keys (.sql .selectActiveKeys)) reply ∧
      keys = AgentKeys.refreshed e.keys reply
  | _ => True

theorem registers_elsewhere {op : Op} (elsewhere : ∀ part, op ≠ .keys part) : Registers e request log op := by
  cases op with
  | keys part => exact absurd rfl (elsewhere part)
  | _ => trivial

theorem registers_of_serves {op : Op} (serves : op.serves = true) : Registers e request log op := by
  apply registers_elsewhere
  rintro part rfl
  cases serves

theorem registers_of_accounts {op : Op} (asks : ∃ part, op = .accounts part) : Registers e request log op := by
  obtain ⟨part, rfl⟩ := asks
  trivial

theorem within_accounts {Value : Type} (program : Program Accounts.Reply Value) :
    Within (fun op => ∃ part, op = Op.accounts part) (accounts program) := by
  refine .part Op.accounts (fun part => ⟨part, rfl⟩) _

theorem registers_of_may {op : Op} (open' : request.credentials = none) (other : request.editsKeys = false)
    (may : request.May op) : Registers e request log op := by
  apply registers_elsewhere
  rintro part rfl
  change (part.refreshes && request.credentials.isSome || request.editsKeys) = true at may
  rw [open', other, Option.isSome_none, Bool.and_false] at may
  cases may

-- The keys' part of a request that registers none.
theorem registers_part {part : AgentKeys.Op} {seen : Log AgentKeys.Reply} {r : AgentKeys.Request}
    (none_supplied : ∀ agentID key host, ¬ r.Supplies e.keys agentID key host)
    (issues : AgentKeys.Issues e.keys r seen part) (before : Log Reply) :
    Registers e request (seen.map (Entry.lift Op.keys) ++ before) (.keys part) := by
  have issued := issues.2
  cases part with
  | sql statement =>
      cases statement with
      | upsertKey agentID key host => exact absurd issued (none_supplied agentID key host)
      | _ => trivial
  | writeCache keys expiresAt =>
      obtain ⟨reply, rest, rfl, same⟩ := issued
      exact ⟨reply, List.mem_cons_self, same⟩
  | _ => trivial

theorem registers_guarded {c : Credentials} (shown : request.credentials = some c) :
    (handler e request).Along (Registers e request) (fun _ _ => True) [] := by
  rw [handler_guarded shown]
  have verifies : (keys (AgentKeys.verifyAgentSignature e.keys c.agentID c.signed)).Along (Registers e request)
      (fun _ _ => True) [] := by
    refine ((AgentKeys.along_verifyAgentSignature c.agentID c.signed).lift Op.keys []).mono ?_ fun _ _ _ => trivial
    rintro _ _ ⟨part, seen, rfl, rfl, issues⟩
    refine registers_part ?_ issues []
    rintro _ _ _ ⟨_, _, _, asked, _⟩
    cases asked
  have authenticates : Within (fun op => ∃ part, op = Op.accounts part) (authenticate e c) := by
    refine .bind (within_accounts _) fun claims => ?_
    cases claims with
    | some claims => exact .pure _
    | none =>
        refine .bind (within_accounts _) fun pat => ?_
        cases pat <;> exact .pure _
  have lets_in : (authenticateOrAgent e c).Along (Registers e request) (fun _ _ => True) [] := by
    refine verifies.sequence fun log claims _ _ => ?_
    cases claims with
    | some claims =>
        rw [Program.along_pure]
        trivial
    | none => exact (authenticates log).mono (fun _ _ => registers_of_accounts) fun _ _ _ => trivial
  refine lets_in.sequence fun log claims _ _ => ?_
  cases claims with
  | none =>
      rw [Program.along_pure]
      trivial
  | some claims => exact (within_served request claims log).mono (fun _ _ => registers_of_serves) fun _ _ _ => trivial

theorem registers_agentKeys (cookie : Option String) (method : Method)
    (body : Option AgentKeys.AgentKeyUpsertRequest) :
    (handler e (.agentKeys cookie method body)).Along (Registers e (.agentKeys cookie method body))
      (fun _ _ => True) [] := by
  refine ((within_accounts _).tracks (fun _ _ => registers_of_accounts) []).sequence fun log claims _ ⟨_, follows⟩ => ?_
  cases claims with
  | none =>
      rw [Program.along_pure]
      trivial
  | some claims =>
      change (agentKeysRoot e method body claims).Along _ _ log
      cases method with
      | get =>
          unfold agentKeysRoot query
          rw [Program.along_perform_bind]
          refine ⟨trivial, fun rows => ?_⟩
          split <;> rw [Program.along_pure] <;> trivial
      | post =>
          have upserts : (keys (AgentKeys.upsertAgentKey e.keys (some ⟨claims.email⟩) body)).Along
              (Registers e (.agentKeys cookie .post body)) (fun _ _ => True) log := by
            refine ((AgentKeys.along_upsertAgentKey (some ⟨claims.email⟩) body).lift Op.keys log).mono ?_
              fun _ _ _ => trivial
            rintro _ _ ⟨part, seen, rfl, rfl, issues⟩
            have issued := issues.2
            cases part with
            | sql statement =>
                cases statement with
                | upsertKey => exact ⟨cookie, body, claims, log, rfl, follows, List.suffix_append _ _, issued⟩
                | _ => trivial
            | writeCache keys expiresAt =>
                obtain ⟨reply, rest, rfl, same⟩ := issued
                exact ⟨reply, List.mem_cons_self, same⟩
            | _ => trivial
          refine upserts.sequence fun log answer _ _ => ?_
          rw [Program.along_pure]
          trivial
      | other =>
          change (pure _ : Handler Answer).Along _ _ _
          rw [Program.along_pure]
          trivial

theorem registers_revokeAgentKey (cookie : Option String) (r : HttpRequest AgentKeys.AgentKeyRevokeRequest) :
    (handler e (.revokeAgentKey cookie r)).Along (Registers e (.revokeAgentKey cookie r)) (fun _ _ => True) [] := by
  refine ((within_accounts _).tracks (fun _ _ => registers_of_accounts) []).sequence fun log claims _ _ => ?_
  cases claims with
  | none =>
      rw [Program.along_pure]
      trivial
  | some claims =>
      have revokes : (keys (AgentKeys.revokeAgentKey r)).Along (Registers e (.revokeAgentKey cookie r))
          (fun _ _ => True) log := by
        refine ((AgentKeys.along_revokeAgentKey (e := e.keys) none r).lift Op.keys log).mono ?_ fun _ _ _ => trivial
        rintro _ _ ⟨part, seen, rfl, rfl, issues⟩
        refine registers_part ?_ issues log
        rintro _ _ _ ⟨_, _, _, asked, _⟩
        cases asked
      refine revokes.sequence fun log answer _ _ => ?_
      rw [Program.along_pure]
      trivial

theorem registers_handler (request : Request) :
    (handler e request).Along (Registers e request) (fun _ _ => True) [] := by
  cases shown : request.credentials with
  | some c => exact registers_guarded shown
  | none =>
      by_cases other : request.editsKeys = false
      · exact (within_handler request []).mono (fun _ _ => registers_of_may shown other) fun _ _ _ => trivial
      · cases request with
        | agentKeys cookie method body => exact registers_agentKeys cookie method body
        | revokeAgentKey cookie r => exact registers_revokeAgentKey cookie r
        | _ => exact absurd rfl other

def registeredKeys (e : Environment) : Table (machine e) AgentKeys.KeyRow :=
  Table.part keys_embed (·.rows) AgentKeys.keyOrigin (fun _ => rfl) AgentKeys.exec_keyRows

def cachedKeys (e : Environment) : Table (machine e) AgentKeys.KeyMap :=
  Table.part keys_embed AgentKeys.World.cached AgentKeys.cacheOrigin (fun _ => rfl) AgentKeys.exec_cached

/-- The request has registered this key for the agent, for a host in a session. -/
def Registered (e : Environment) (registrar : ServiceThread) (claims : Accounts.UserClaims) (agentID : String)
    (key : Bytes) : Prop :=
  ∃ cookie body keyText, registrar.request = .agentKeys cookie .post body ∧ SignedIn e registrar claims ∧
    AgentKeys.Request.Supplies e.keys (.upsert (some ⟨claims.email⟩) body) agentID keyText claims.email ∧
    registrar.log.Saw (.keys (.sql (.upsertKey agentID keyText claims.email))) (.ok ()) ∧
    e.keys.base64Decode keyText = some key

theorem Registered.signedIn {registrar : ServiceThread} {claims : Accounts.UserClaims} {agentID : String}
    {key : Bytes}
    (registered : Registered e registrar claims agentID key) : SignedIn e registrar claims := by
  obtain ⟨_, _, _, _, signed, _⟩ := registered
  exact signed

/-- The agent's key is one of the environment, or one that a host in a session has registered. -/
def KnownKey (e : Environment) (cfg : Service) (agentID : String) (key : Bytes) : Prop :=
  AgentKeys.lookupKey (AgentKeys.agentPublicKeysFromEnv e.keys) agentID = some key ∨
    ∃ registrar ∈ cfg.threads, ∃ host, Registered e registrar host agentID key

theorem read_known (start : init.threads = []) (none_registered : init.world.keys.rows = [])
    (run : (machine e).Reaches anyStep init cfg) {thread : ServiceThread} (member : thread ∈ cfg.threads)
    {answer : Except Fault (List (String × String))} (saw : thread.log.Saw (.keys (.sql .selectActiveKeys)) answer)
    {agentID : String} {key : Bytes}
    (found : AgentKeys.lookupKey (AgentKeys.refreshed e.keys answer) agentID = some key) :
    KnownKey e cfg agentID key := by
  rcases AgentKeys.refreshed_row found with outside | ⟨rows, entry, rfl, listed, named, decoded⟩
  · exact .inl outside
  · obtain ⟨row, same, registrar, here, _, upserted, _, rfl, origin⟩ :=
      run.found_origin (registeredKeys e)
        (fun row => (row.agentId, row.publicKeyBase64) = entry) start none_registered
        member saw (by
          intro choice w after executed
          obtain ⟨row, among, same⟩ := AgentKeys.exec_activeKey (exec_keys executed) listed
          exact ⟨row, among, same⟩)
    rw [origin] at upserted
    have upserted : registrar.log.Saw
        (.keys (.sql (.upsertKey row.agentId row.publicKeyBase64 row.createdBy))) (.ok ()) :=
      upserted
    obtain ⟨earlier, since, cookie, body, claims, seen, asked, follows, within, supplies⟩ :=
      (run.justified registers_handler start).saw here upserted
    subst same
    obtain ⟨_, req, _, same, id, _, text, host, _⟩ := id supplies
    cases same
    -- The handler trimmed the name and the key; the refresh trims both once more.
    rw [id, trimSpace_trimSpace, ← id] at named
    rw [text, trimSpace_trimSpace, ← text] at decoded
    rw [host] at supplies upserted
    rw [named]
    refine .inr ⟨registrar, here, claims, cookie, _, _, asked, ⟨[], seen, ?_, within.trans since⟩, supplies, upserted,
      decoded⟩
    rw [asked]
    exact follows

-- The keys an agent's signature is checked against are known ones.
theorem source_known (start : init.threads = []) (none_registered : init.world.keys.rows = [])
    (none_cached : init.world.keys.cache.keys = none) (run : (machine e).Reaches anyStep init cfg)
    {thread : ServiceThread} (member : thread ∈ cfg.threads) {seen : Log AgentKeys.Reply}
    (from_seen : seen.map (Entry.lift Op.keys) <:+ thread.log) {keys : Option AgentKeys.KeyMap}
    (source : AgentKeys.Source e.keys seen keys) {agentID : String} {key : Bytes}
    (found : AgentKeys.lookupKey keys agentID = some key) : KnownKey e cfg agentID key := by
  cases source with
  | read saw =>
      exact read_known start none_registered run member (from_seen.subset (Log.Saw.lift Op.keys saw)) found
  | @cached stored expiresAt saw =>
      -- Whoever filled the cache had read the table itself, so this case leads back to the other.
      have empty : (cachedKeys e).rows init.world = [] := congrArg Option.toList none_cached
      obtain ⟨map, is_stored, writer, here, _, written, _, rfl, expiresAt, rfl⟩ :=
        run.found_origin (cachedKeys e) (fun keys => keys = stored) start empty member
          (from_seen.subset (Log.Saw.lift Op.keys saw)) (by
            intro choice w after executed
            have read := congrArg Prod.fst (Option.some.inj (exec_keys executed))
            refine ⟨stored, ?_, rfl⟩
            exact Option.mem_toList.mpr (congrArg AgentKeys.AgentKeyCache.keys read))
      subst is_stored
      have written : writer.log.Saw (.keys (.writeCache (some map) expiresAt)) () := written
      obtain ⟨earlier, since, answer, read, same⟩ := (run.justified registers_handler start).saw here written
      rw [same] at found
      exact read_known start none_registered run here (read.mono since) found

end Keys

section Guard

inductive LetIn (e : Environment) (c : Credentials) (log : Log Reply) (claims : Accounts.UserClaims) : Prop where
  | session {before seen} : Follows (accounts (Accounts.sessionClaimsFromRequest e.accounts c.cookie)) before
      (some claims) seen → seen <:+ log → LetIn e c log claims
  | token {before seen pat} : Follows (accounts (Accounts.personalAccessTokenAuthFromRaw e.accounts
      (AgentRuntime.bearerToken c.authorization))) before (some pat) seen → seen <:+ log → pat.claims = claims →
      LetIn e c log claims
  | agent {seen keys key ts now} : seen.map (Entry.lift Op.keys) <:+ log → AgentKeys.Source e.keys seen keys →
      AgentKeys.lookupKey keys (trimSpace c.agentID) = some key →
      signatureHolds e.keys.toCrypto c.signed key ts now = true →
      claims.email = "agent:" ++ trimSpace c.agentID → LetIn e c log claims

theorem along_letIn (c : Credentials) : (authenticateOrAgent e c).Along (fun _ _ => True)
    (fun log claims => ∀ found, claims = some found → LetIn e c log found) [] := by
  have signs : (AgentKeys.verifyAgentSignature e.keys c.agentID c.signed).Along (fun _ _ => True) (fun log claims =>
      AgentKeys.Ends e.keys (.verify c.agentID c.signed) log (.verified claims) ∧
        ∀ found, claims = some found → found.email = "agent:" ++ trimSpace c.agentID) [] :=
    ((AgentKeys.along_verifyAgentSignature c.agentID c.signed).and (AgentKeys.along_named c.agentID c.signed [])).mono
      (fun _ _ _ => trivial) fun _ _ held => held
  -- The guard asks for an agent's signature first, then for the cookie, then for a token.
  refine ((signs.lift Op.keys []).mono (fun _ _ _ => trivial) fun _ _ held => held).sequence
      fun log claims _ held => ?_
  obtain ⟨seen, rfl, ends, named⟩ := held
  rw [List.append_nil]
  cases claims with
  | some claims =>
      obtain ⟨_, r, keys, key, ts, now, asked, source, found, holds⟩ := ends.2
      cases asked
      rw [Program.along_pure]
      rintro _ ⟨⟩
      exact .agent (List.suffix_refl _) source found holds (named claims rfl)
  | none =>
      refine (along_follows (accounts (Accounts.sessionClaimsFromRequest e.accounts c.cookie)) _).sequence
        fun log claims _ follows => ?_
      cases claims with
      | some claims =>
          rw [Program.along_pure]
          rintro _ ⟨⟩
          exact .session follows (List.suffix_refl _)
      | none =>
          refine (along_follows (accounts (Accounts.personalAccessTokenAuthFromRaw e.accounts
            (AgentRuntime.bearerToken c.authorization))) log).sequence fun log pat _ follows => ?_
          cases pat with
          | none =>
              rw [Program.along_pure]
              nofun
          | some pat =>
              rw [Program.along_pure]
              rintro _ ⟨⟩
              exact .token follows (List.suffix_refl _) rfl

/-- The user of these claims has logged in: the request is under the session that came of it. -/
def ByLogin (e : Environment) (cfg : Service) (thread : ServiceThread) (claims : Accounts.UserClaims) : Prop :=
  SignedIn e thread claims ∧ ∃ login ∈ cfg.threads, Began e login claims

/-- The request shows a token that its user has made under such a session. -/
def ByToken (e : Environment) (cfg : Service) (thread : ServiceThread) (claims : Accounts.UserClaims) : Prop :=
  ∃ raw pat, ShowsToken e thread raw pat ∧ pat.claims = claims ∧ ∃ maker ∈ cfg.threads, ∃ owner,
    Made e maker owner pat.tokenID raw ∧ owner.userID = claims.userID ∧ ByLogin e cfg maker owner

/-- The request is signed for the agent it names, with a key of the environment or one that a
host has registered under such a session. -/
def ByAgent (e : Environment) (cfg : Service) (thread : ServiceThread) (claims : Accounts.UserClaims) : Prop :=
  ∃ c key ts now, thread.request.credentials = some c ∧ claims.email = "agent:" ++ trimSpace c.agentID ∧
    signatureHolds e.keys.toCrypto c.signed key ts now = true ∧
    (AgentKeys.lookupKey (AgentKeys.agentPublicKeysFromEnv e.keys) (trimSpace c.agentID) = some key ∨
      ∃ registrar ∈ cfg.threads, ∃ host, Registered e registrar host (trimSpace c.agentID) key ∧
        ByLogin e cfg registrar host)

theorem cookie_of_credentials {c : Credentials} (shown : request.credentials = some c) :
    request.cookie = c.cookie := by
  cases request with
  | me | events | eventsSubroutes | importLuma =>
      cases shown
      rfl
  | _ => cases shown

/-- Any interleaving of requests to a server that begins without sessions, tokens or agents'
keys. Whoever the guard of the hosts' routes lets in is under a session that a login opened,
shows a token made under such a session, or signs with an agent's key that is the
environment's own or was registered under such a session. -/
theorem authenticated_from_logins (start : init.threads = []) (none_open : init.world.accounts.sessions = [])
    (none_made : init.world.accounts.tokens = []) (none_registered : init.world.keys.rows = [])
    (none_cached : init.world.keys.cache.keys = none) (run : (machine e).Reaches anyStep init cfg)
    {thread : ServiceThread} (member : thread ∈ cfg.threads) {claims : Accounts.UserClaims}
    (authenticated : Authenticated e thread.request thread.log claims) :
    ByLogin e cfg thread claims ∨ ByToken e cfg thread claims ∨ ByAgent e cfg thread claims := by
  obtain ⟨c, seen, shown, follows, within⟩ := authenticated
  have logged {thread : ServiceThread} {claims : Accounts.UserClaims} (here : thread ∈ cfg.threads)
      (signed : SignedIn e thread claims) : ByLogin e cfg thread claims :=
    ⟨signed, live_began start none_open run here signed.live⟩
  cases (along_letIn c).follows follows claims rfl with
  | @session before seen' session since =>
    refine .inl (logged member ⟨before, seen', ?_, since.trans within⟩)
    rw [cookie_of_credentials shown]
    exact session
  | token token since same =>
    subst same
    have shows : ShowsToken e thread _ _ := ⟨_, _, token, since.trans within⟩
    obtain ⟨maker, here, owner, made, own⟩ := tokens_made start none_made run member shows
    exact .inr (.inl ⟨_, _, shows, rfl, maker, here, owner, made, own, logged here made.signedIn⟩)
  | agent from_seen source found holds named =>
    refine .inr (.inr ⟨c, _, _, _, shown, named, holds, ?_⟩)
    rcases source_known start none_registered none_cached run member (from_seen.trans within) source found with
      outside | ⟨registrar, here, host, registered⟩
    · exact .inl outside
    · exact .inr ⟨registrar, here, host, registered, logged here registered.signedIn⟩

end Guard

section Deployment

def asksToken : Request := .account (.pats (some aliceCookie) ⟨.post, some ⟨"runtime", 0⟩⟩)

/-- Her script shows the token, with a method the route does not take. -/
def byScript : Credentials := byAlice "POST" "/api/auth/me"

def drawsText (text : String) : Choice := { sound with text := some text }

abbrev Admission := Accounts.PersonalAccessTokenAuth × World × Log Reply

def makesToken (cfg : Service) : Option ((Accounts.Answer × World × Log Reply) × Admission) :=
  ((accounts (Accounts.createAgentPAT environment.accounts Accounts.aliceSession (some ⟨"runtime", 0⟩))).playLogged
      (exec environment) [drawsText "5c1e9a7b3d2f4860c8e1b5a79d3f2e4c6a8b0d1f3e5c7a9b",
        drawsText "1d7c5b3a-8e6f-4a2b-9c0d-3e5f7a9b1c2d", sound, sound] cfg.world.timed (admittedLog cfg.world)).bind
    fun made => ((accounts (Accounts.personalAccessTokenAuthFromRaw environment.accounts
        (AgentRuntime.bearerToken byScript.authorization))).playLogged (exec environment) [sound, sound, sound]
          made.2.1 []).bind fun shown => shown.1.map fun pat => (made, pat, shown.2.1, shown.2.2)

theorem byScript_authenticated {w w' : World} {log : Log Reply} {pat : Accounts.PersonalAccessTokenAuth}
    (shown : Traces Performed (accounts (Accounts.personalAccessTokenAuthFromRaw environment.accounts
      (AgentRuntime.bearerToken byScript.authorization))) w [] (some pat) w' log) :
    Traces Performed (authenticateOrAgent environment byScript) w [] (some pat.claims) w' log := by
  rw [byScript, byAlice_authenticated]
  exact shown.bind (.ret _ _ _)

-- Alice logs in and makes a token, and the token is shown.
theorem byScript_served : ∃ (cfg : Service) (thread : ServiceThread) (pat : Accounts.PersonalAccessTokenAuth),
    (machine environment).Reaches anyStep ⟨closed, []⟩ cfg ∧ thread ∈ cfg.threads ∧
    ShowsToken environment thread (AgentRuntime.bearerToken byScript.authorization) pat ∧
    Authenticated environment thread.request thread.log pat.claims := by
  obtain ⟨cfg, run, done⟩ := run_meets (machine environment) (fun _ _ => true) signIn ⟨closed, []⟩
    (fun cfg => signedIn cfg && (makesToken cfg).isSome) (by decide +kernel)
  simp only [Bool.and_eq_true, signedIn, decide_eq_true_eq] at done
  obtain ⟨⟨opened, clock⟩, plays⟩ := done
  obtain ⟨⟨made, pat, w, log⟩, played⟩ := Option.isSome_iff_exists.mp plays
  obtain ⟨⟨answer, w₁, log₁⟩, played₁, rest⟩ := Option.bind_eq_some_iff.mp played
  obtain ⟨⟨found, w₂, log₂⟩, played₂, same⟩ := Option.bind_eq_some_iff.mp rest
  obtain ⟨_, rfl, same⟩ := Option.map_eq_some_iff.mp same
  cases same
  have created : Traces Performed _ _ _ _ _ _ := Program.playLogged_traces _ (fun _ _ => trivial) played₁
  have shown : Traces Performed _ _ _ _ _ _ := Program.playLogged_traces _ (fun _ _ => trivial) played₂
  have admitted := aliceCookie_admitted clock opened
  have asked : Traces Performed (handler environment asksToken) cfg.world [] (.accounts answer) w₁ log₁ := by
    change Traces Performed (accounts (Accounts.requireSessionAuth environment.accounts (some aliceCookie) _) >>=
      fun answer => pure (Answer.accounts answer)) _ _ _ _ _
    unfold accounts Accounts.requireSessionAuth
    rw [Program.lift_bind, Program.bind_assoc]
    exact admitted.bind (created.bind (.ret _ _ _))
  have authenticated := byScript_authenticated shown
  have served : Traces Performed (handler environment (.me byScript)) w₁ []
      (.accounts (.error "Only GET method is allowed" 405)) w₂ log₂ := authenticated.bind (.ret _ _ _)
  have second := (run.any.trans (served_alone asked)).trans (served_alone served)
  exact ⟨_, _, pat, second, List.mem_append_right _ (List.mem_singleton_self _), ⟨[], log₂, shown.follows,
    List.suffix_refl _⟩, byScript, log₂, rfl, authenticated.follows, List.suffix_refl _⟩

-- Alice's script shows her token: she has made it, by the general result.
theorem tokens_from_logins_alice : ∃ (cfg : Service) (maker login : ServiceThread) (claims : Accounts.UserClaims)
    (pat : Accounts.PersonalAccessTokenAuth), maker ∈ cfg.threads ∧ login ∈ cfg.threads ∧
      Made environment maker claims pat.tokenID (AgentRuntime.bearerToken byScript.authorization) ∧
      Began environment login claims := by
  obtain ⟨cfg, thread, pat, run, member, shows, _⟩ := byScript_served
  obtain ⟨maker, here, claims, made, _, login, present, began⟩ := tokens_from_logins rfl rfl rfl run member shows
  exact ⟨cfg, maker, login, claims, pat, here, present, made, began⟩

-- The guard lets her script in, and the general result says by whose leave.
theorem authenticated_from_logins_alice : ∃ (cfg : Service) (thread : ServiceThread) (claims : Accounts.UserClaims),
    thread ∈ cfg.threads ∧ Authenticated environment thread.request thread.log claims ∧
      (ByLogin environment cfg thread claims ∨ ByToken environment cfg thread claims ∨
        ByAgent environment cfg thread claims) := by
  obtain ⟨cfg, thread, pat, run, member, _, authenticated⟩ := byScript_served
  exact ⟨cfg, thread, pat.claims, member, authenticated,
    authenticated_from_logins rfl rfl rfl rfl rfl run member authenticated⟩

end Deployment
end Payknot.Server
