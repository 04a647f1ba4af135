import Payknot.EventOwnership
import Payknot.Settlements

/-! What dies with a personal access token. Revoking it and its expiry end the token
itself: nothing is issued from it and nobody is authenticated by it any more. The runtime
tokens issued from it before know nothing of it: they live for the 24 hours written into
them. -/
namespace Payknot.Server
open GoText Interleaving Machine

variable {e : Environment} {cfg after init : Service} {label : ServiceLabel}

section Claims

/-- The token carries the claims, and they had not expired when the clock was read. -/
def Carries (e : AgentRuntime.Environment) (token : String) (log : Log AgentRuntime.Reply)
    (claims : AgentRuntime.AgentClaims) : Prop :=
  AgentRuntime.signedClaims e token = some claims ∧ ∃ now, log.Saw .now now ∧ unix now < claims.expiresAt

theorem Carries.cons {e : AgentRuntime.Environment} {token : String} {log : Log AgentRuntime.Reply}
    {claims : AgentRuntime.AgentClaims} (carries : Carries e token log claims) (entry : Entry AgentRuntime.Reply) :
    Carries e token (entry :: log) claims := by
  obtain ⟨signed, now, saw, unexpired⟩ := carries
  exact ⟨signed, now, List.mem_cons_of_mem _ saw, unexpired⟩

theorem Carries.mono {e : AgentRuntime.Environment} {token : String} {log later : Log AgentRuntime.Reply}
    {claims : AgentRuntime.AgentClaims} (carries : Carries e token log claims) (grown : log <:+ later) :
    Carries e token later claims := by
  obtain ⟨signed, now, saw, unexpired⟩ := carries
  exact ⟨signed, now, saw.mono grown, unexpired⟩

variable {log : Log AgentRuntime.Reply}

theorem along_carries_parse (e : AgentRuntime.Environment) (token : String) :
    (AgentRuntime.parseAndVerifyAgentJWT e token).Along (fun _ _ => True)
      (fun log claims => ∀ agent, claims = some agent → Carries e token log agent) log := by
  unfold AgentRuntime.parseAndVerifyAgentJWT AgentRuntime.timeNow
  split
  · next claims signed =>
    split
    · rw [Program.along_pure]
      nofun
    · rw [Program.along_perform_bind]
      refine ⟨trivial, fun now => ?_⟩
      split
      · rw [Program.along_pure]
        nofun
      · next unexpired =>
        rw [Program.along_pure]
        rintro _ ⟨⟩
        exact ⟨signed, now, List.mem_cons_self, lt_of_not_ge unexpired⟩
  · rw [Program.along_pure]
    nofun

theorem along_carries_jwt (e : AgentRuntime.Environment) (token : String) :
    (AgentRuntime.jwtBackedAgentClaimsFromRequest e token).Along (fun _ _ => True)
      (fun log claims => ∀ agent, claims = some agent → Carries e token log agent) log := by
  refine (along_carries_parse e token).sequence fun log claims _ carried => ?_
  split
  · next agent =>
    have carries := carried agent rfl
    unfold AgentRuntime.sql
    rw [Program.along_perform_bind]
    refine ⟨trivial, fun live => ?_⟩
    split
    · rw [Program.along_perform_bind]
      refine ⟨trivial, fun _ => ?_⟩
      rw [Program.along_pure]
      rintro _ ⟨⟩
      exact (carries.cons _).cons _
    · rw [Program.along_pure]
      nofun
  · rw [Program.along_pure]
    nofun

theorem along_carries_signed (e : AgentRuntime.Environment) (r : AgentRuntime.CheckoutRequest) :
    (AgentRuntime.signedAgentSessionClaimsFromRequest e r).Along (fun _ _ => True)
      (fun log claims => ∀ agent, claims = some agent →
        hasPrefix (AgentRuntime.bearerToken r.authorization) "pkt_pat_" = false ∧
          Carries e (AgentRuntime.bearerToken r.authorization) log agent) log := by
  unfold AgentRuntime.signedAgentSessionClaimsFromRequest
  dsimp only
  split
  · rw [Program.along_pure]
    nofun
  · next other =>
    have plain : hasPrefix (AgentRuntime.bearerToken r.authorization) "pkt_pat_" = false := by
      simpa using fun looks => other (.inr looks)
    refine (along_carries_jwt e _).sequence fun log claims _ carried => ?_
    split
    · next agent =>
      have carries := carried agent rfl
      split
      · split
        · rw [Program.along_pure]
          nofun
        · refine (Program.along_grows _ log).sequence fun log accepted _ grown => ?_
          split
          · rw [Program.along_pure]
            rintro _ ⟨⟩
            exact ⟨plain, carries.mono grown⟩
          · rw [Program.along_pure]
            nofun
      · rw [Program.along_pure]
        nofun
    · rw [Program.along_pure]
      nofun

/-- What is signed into a new runtime token: it expires 24 hours after the clock was read. -/
def Minted (e : AgentRuntime.Environment) (log : Log AgentRuntime.Reply) (token : String) (issued : Time) : Prop :=
  log.Saw .now issued ∧ ∃ claims, AgentRuntime.signAgentJWT e claims = some token ∧
    claims.expiresAt = unix (issued + 24 * 60 * minute)

theorem along_minted (e : AgentRuntime.Environment) (agentID scope : String) :
    (AgentRuntime.writeAgentAuthResponse e agentID scope).Along (fun _ _ => True)
      (fun log answer => ∀ token id scope signed, answer = .token token id scope signed →
        ∃ issued, Minted e log token issued) log := by
  unfold AgentRuntime.writeAgentAuthResponse AgentRuntime.newUUID AgentRuntime.timeNow AgentRuntime.sql
  rw [Program.along_perform_bind]
  refine ⟨trivial, fun jti => ?_⟩
  rw [Program.along_perform_bind]
  refine ⟨trivial, fun issued => ?_⟩
  dsimp only
  rw [Program.along_perform_bind]
  refine ⟨trivial, fun issuedAt => ?_⟩
  split
  · rw [Program.along_pure]
    nofun
  · next token signed =>
    rw [Program.along_perform_bind]
    refine ⟨trivial, fun id => ?_⟩
    rw [Program.along_perform_bind]
    refine ⟨trivial, fun inserted => ?_⟩
    split
    · rw [Program.along_pure]
      nofun
    · rw [Program.along_pure]
      rintro _ _ _ _ ⟨⟩
      have saw : (⟨.now, issued⟩ : Entry AgentRuntime.Reply) ∈
          [⟨.now, issuedAt⟩, ⟨.now, issued⟩, ⟨.newUUID, jti⟩] ++ log := by simp
      exact ⟨issued, List.mem_cons_of_mem _ (List.mem_cons_of_mem _ saw), _, signed, rfl⟩

theorem along_foundToken (e : Accounts.Environment) (raw : String) (log : Log Accounts.Reply) :
    (Accounts.personalAccessTokenAuthFromRaw e raw).Along (fun _ _ => True)
      (fun log found => ∀ pat, found = some pat → ∃ tokenHash owner,
        log.Saw (.sql (.selectTokenOwner tokenHash)) (.ok (some owner)) ∧ owner.tokenID = pat.tokenID) log := by
  unfold Accounts.personalAccessTokenAuthFromRaw
  dsimp only
  split
  · rw [Program.along_pure]
    nofun
  · unfold Accounts.sql Accounts.timeNow
    rw [Program.along_perform_bind]
    refine ⟨trivial, fun found => ?_⟩
    split
    · next owner =>
      rw [Program.along_perform_bind]
      refine ⟨trivial, fun now => ?_⟩
      rw [Program.along_perform_bind]
      refine ⟨trivial, fun touched => ?_⟩
      rw [Program.along_pure]
      rintro _ ⟨⟩
      exact ⟨_, owner, List.mem_cons_of_mem _ (List.mem_cons_of_mem _ List.mem_cons_self), rfl⟩
    · rw [Program.along_pure]
      nofun

theorem along_revoked (claims : Accounts.UserClaims) (r : HttpRequest Accounts.AgentPATRevokeRequest)
    (log : Log Accounts.Reply) :
    (Accounts.revokeAgentPAT claims r).Along (fun _ _ => True)
      (fun log answer => ∀ tokenID, answer = .tokenRevoked tokenID →
        log.Saw (.sql (.revokeToken tokenID claims.userID)) (.ok ())) log := by
  unfold Accounts.revokeAgentPAT
  split
  · rw [Program.along_pure]
    nofun
  · split
    · dsimp only
      split
      · rw [Program.along_pure]
        nofun
      · unfold Accounts.sql
        rw [Program.along_perform_bind]
        refine ⟨trivial, fun revoked => ?_⟩
        cases revoked with
        | error fault =>
            rw [Program.along_pure]
            nofun
        | ok done =>
            rw [Program.along_pure]
            rintro _ ⟨⟩
            exact List.mem_cons_self
    · rw [Program.along_pure]
      nofun

end Claims

section Tables
variable {a : Accounts.Environment} {choice : Accounts.Choice} {op : Accounts.Op} {reply : Accounts.Reply op}
  {w w' : Accounts.World}

/-- The primary key of `agent_personal_access_tokens`. -/
def TokensKeyed (w : Accounts.World) : Prop := (w.tokens.map Accounts.TokenRow.id).Nodup

structure Remains (row row' : Accounts.TokenRow) : Prop where
  id : row'.id = row.id
  userID : row'.userID = row.userID
  expiresAt : row'.expiresAt = row.expiresAt
  revoked : row.revokedAt.isSome = true → row'.revokedAt.isSome = true

theorem Remains.refl (row : Accounts.TokenRow) : Remains row row := ⟨rfl, rfl, rfl, fun revoked => revoked⟩

theorem Remains.trans {row row' row'' : Accounts.TokenRow} (remains : Remains row row')
    (remains' : Remains row' row'') : Remains row row'' :=
  ⟨remains'.id.trans remains.id, remains'.userID.trans remains.userID, remains'.expiresAt.trans remains.expiresAt,
    fun revoked => remains'.revoked (remains.revoked revoked)⟩

/-- Everything an operation can do to the tokens: add one under a new number, or replace
some by what remains of them. -/
theorem exec_tokens (executed : Accounts.exec a choice op w = some (reply, w')) :
    (∃ token : Accounts.NewToken, (∀ row ∈ w.tokens, row.id ≠ token.id) ∧ w'.tokens = w.tokens ++ [token.row w.now]) ∨
    ∃ set : Accounts.TokenRow → Accounts.TokenRow, (∀ row, Remains row (set row)) ∧ w'.tokens = w.tokens.map set := by
  have unchanged (same : w'.tokens = w.tokens) :
      ∃ set : Accounts.TokenRow → Accounts.TokenRow, (∀ row, Remains row (set row)) ∧ w'.tokens = w.tokens.map set :=
    ⟨id, Remains.refl, by rw [same, List.map_id]⟩
  have replaced {selected : Accounts.TokenRow → Bool} {set : Accounts.TokenRow → Accounts.TokenRow}
      (same : w'.tokens = updateWhere selected set w.tokens) (remains : ∀ row, Remains row (set row)) :
      ∃ set : Accounts.TokenRow → Accounts.TokenRow, (∀ row, Remains row (set row)) ∧ w'.tokens = w.tokens.map set := by
    refine ⟨fun row => if selected row then set row else row, fun row => ?_, same⟩
    beta_reduce
    split
    · exact remains row
    · exact Remains.refl row
  cases op with
  | sql statement =>
      rcases Accounts.exec_sql executed with ⟨_, rfl⟩ | ⟨value, rfl, ran⟩
      · exact .inr (unchanged rfl)
      · cases statement with
        | insertToken token =>
            simp only [Accounts.runSql] at ran
            split at ran
            · cases ran
            · next new =>
              split at ran
              · cases ran
              · split at ran
                · cases ran
                  simp only [List.any_eq_true, decide_eq_true_eq, not_exists, not_and] at new
                  exact .inl ⟨token, new, rfl⟩
                · cases ran
        | touchToken id =>
            cases ran
            exact .inr (replaced rfl fun _ => ⟨rfl, rfl, rfl, fun revoked => revoked⟩)
        | revokeToken text userID =>
            simp only [Accounts.runSql] at ran
            split at ran
            · cases ran
            · cases ran
              exact .inr (replaced rfl fun _ => ⟨rfl, rfl, rfl, fun _ => rfl⟩)
        | insertPasswordUser | insertGoogleUser =>
            simp only [Accounts.runSql, Accounts.World.insertUser] at ran
            split at ran
            · cases ran
            · split at ran <;> cases ran
              exact .inr (unchanged rfl)
        | insertUserSession =>
            simp only [Accounts.runSql] at ran
            split at ran
            · cases ran
            · split at ran <;> cases ran
              exact .inr (unchanged rfl)
        | _ =>
            cases ran
            exact .inr (unchanged rfl)
  | _ =>
      apply Or.inr (unchanged _)
      simp only [Accounts.exec] at executed
      repeat' split at executed
      all_goals first | cases executed; rfl | cases executed

theorem TokensKeyed.exec (keyed : TokensKeyed w) (executed : Accounts.exec a choice op w = some (reply, w')) :
    TokensKeyed w' := by
  unfold TokensKeyed at keyed ⊢
  rcases exec_tokens executed with ⟨token, new, added⟩ | ⟨set, remains, same⟩
  · rw [added, List.map_append, List.nodup_append]
    refine ⟨keyed, by simp, ?_⟩
    intro id among other only same
    obtain ⟨row, member, rfl⟩ := List.mem_map.mp among
    simp only [List.map_cons, List.map_nil, List.mem_singleton, Accounts.NewToken.row] at only
    exact new row member (same.trans only)
  · have ids : w'.tokens.map Accounts.TokenRow.id = w.tokens.map Accounts.TokenRow.id := by
      rw [same, List.map_map]
      exact List.map_congr_left fun row _ => (remains row).id
    rw [ids]
    exact keyed

theorem token_remains (executed : Accounts.exec a choice op w = some (reply, w')) {row : Accounts.TokenRow}
    (member : row ∈ w.tokens) : ∃ row' ∈ w'.tokens, Remains row row' := by
  rcases exec_tokens executed with ⟨token, _, added⟩ | ⟨set, remains, same⟩
  · rw [added]
    exact ⟨row, List.mem_append_left _ member, Remains.refl row⟩
  · rw [same]
    exact ⟨set row, List.mem_map_of_mem member, remains row⟩

-- Revoking a token of the user's leaves it revoked.
theorem exec_revokeToken {text : String} {row : Accounts.TokenRow}
    (executed : Accounts.exec a choice (.sql (.revokeToken text row.userID)) w = some (.ok (), w'))
    (named : a.uuidText text = some row.id) (member : row ∈ w.tokens) :
    ∃ row' ∈ w'.tokens, Remains row row' ∧ row'.revokedAt.isSome = true := by
  rcases Accounts.exec_sql executed with ⟨⟨_, failed⟩, _⟩ | ⟨value, _, ran⟩
  · cases failed
  · simp only [Accounts.runSql, named] at ran
    cases ran
    rcases updateWhere_mem (fun old => old.id = row.id && (old.userID = row.userID && old.revokedAt.isNone))
      (fun old => { old with revokedAt := some w.now }) member with ⟨_, revoked⟩ | ⟨kept, same⟩
    · exact ⟨_, revoked, ⟨rfl, rfl, rfl, fun _ => rfl⟩, rfl⟩
    · refine ⟨row, same, Remains.refl row, ?_⟩
      simpa using kept

theorem exec_selectTokenOwner {tokenHash : String} {owner : Accounts.TokenOwner}
    (executed : Accounts.exec a choice (.sql (.selectTokenOwner tokenHash)) w = some (.ok (some owner), w')) :
    ∃ row ∈ w.tokens, row.id = owner.tokenID ∧ row.live w.now = true := by
  rcases Accounts.exec_sql executed with ⟨⟨_, failed⟩, _⟩ | ⟨value, same, ran⟩
  · cases failed
  · cases same
    simp only [Accounts.runSql, Except.ok.injEq, Prod.mk.injEq] at ran
    obtain ⟨found, _⟩ := ran
    unfold Accounts.tokenOwner at found
    split at found
    · cases found
    · next row stored =>
      obtain ⟨user, _, rfl⟩ := Option.map_eq_some_iff.mp found
      have meets := List.find?_some stored
      simp only [Bool.and_eq_true] at meets
      exact ⟨row, List.mem_of_find?_eq_some stored, rfl, meets.2⟩

end Tables

section Steps

/-- A step leaves the accounts alone or is one operation on them, under the server's clock. -/
theorem step_accounts (stepped : (machine e).next cfg label = some after) :
    after.world.accounts = cfg.world.accounts ∨ ∃ choice part answer,
      Accounts.exec e.accounts choice part { cfg.world.accounts with now := cfg.world.now } =
        some (answer, after.world.accounts) := by
  rcases next_cases stepped with ⟨_, _, rfl⟩ | ⟨event, world, _, occurred, rfl⟩ |
    ⟨index, choice, thread, op, rest, reply, world, rfl, at_index, program, executed, rfl⟩
  · exact .inl rfl
  · simp only [machine, occur, Option.map_eq_some_iff] at occurred
    obtain ⟨core, _, rfl⟩ := occurred
    exact .inl rfl
  · change exec e choice op cfg.world = some (reply, world) at executed
    cases op with
    | accounts part =>
        simp only [exec, Option.map_eq_some_iff] at executed
        obtain ⟨⟨answer, accounts⟩, ran, same⟩ := executed
        cases same
        exact .inr ⟨_, part, answer, ran⟩
    | query | fetchPage =>
        simp only [exec, Option.some.injEq] at executed
        first
          | split at executed <;> cases executed <;> exact .inl rfl
          | cases executed; exact .inl rfl
    | _ =>
        simp only [exec, Option.map_eq_some_iff] at executed
        obtain ⟨_, _, same⟩ := executed
        cases same
        exact .inl rfl

theorem clock_next (stepped : (machine e).next cfg label = some after) : cfg.world.now ≤ after.world.now := by
  rcases next_cases stepped with ⟨_, _, rfl⟩ | ⟨event, world, _, occurred, rfl⟩ |
    ⟨index, choice, thread, op, rest, reply, world, rfl, at_index, program, executed, rfl⟩
  · exact le_refl _
  · simp only [machine, occur, Option.map_eq_some_iff] at occurred
    obtain ⟨core, occurred, rfl⟩ := occurred
    cases event with
    | tick elapsed =>
        cases occurred
        exact Int.le_add_of_nonneg_right (Int.natCast_nonneg elapsed)
    | land landed =>
        simp only [Payknot.occur] at occurred
        split at occurred <;> cases occurred
        exact le_refl _
  · rcases exec_core executed with same | ⟨part, answer, _, ran⟩
    · simp only [World.now, same, le_refl]
    · exact (exec_now ran).ge

theorem clock_reached {first last : Service} (run : (machine e).Reaches anyStep first last) :
    first.world.now ≤ last.world.now :=
  run.invariant (fun cfg => first.world.now ≤ cfg.world.now) (le_refl _)
    fun _ _ _ held _ stepped => le_trans held (clock_next stepped)

-- A request reads the clock while it is served.
theorem saw_clock {first last : Service} (run : (machine e).Reaches anyStep first last) {index : Nat}
    {thread : ServiceThread} (late : first.threads.length ≤ index) (found : last.threads[index]? = some thread)
    {time : Time} (saw : thread.log.Saw (.agents .now) time) : first.world.now ≤ time ∧ time ≤ last.world.now := by
  obtain ⟨middle, _, after, _, before, _, executed, since⟩ := run.performed late found saw
  simp only [machine, exec, AgentRuntime.exec, Option.map_some, Option.some.injEq, Prod.mk.injEq] at executed
  obtain ⟨rfl, same⟩ := executed
  have passed := clock_reached since
  rw [← same] at passed
  exact ⟨clock_reached before, passed⟩

theorem keyed_reached {first last : Service} (keyed : TokensKeyed first.world.accounts)
    (run : (machine e).Reaches anyStep first last) : TokensKeyed last.world.accounts := by
  apply run.invariant (fun cfg => TokensKeyed cfg.world.accounts) keyed
  intro cfg label after held _ stepped
  rcases step_accounts stepped with same | ⟨_, _, _, executed⟩
  · rw [same]
    exact held
  · exact TokensKeyed.exec (w := { cfg.world.accounts with now := cfg.world.now }) held executed

theorem remains_reached {first last : Service} (run : (machine e).Reaches anyStep first last)
    {row : Accounts.TokenRow} (member : row ∈ first.world.accounts.tokens) :
    ∃ row' ∈ last.world.accounts.tokens, Remains row row' := by
  apply run.invariant (fun cfg => ∃ row' ∈ cfg.world.accounts.tokens, Remains row row')
    ⟨row, member, Remains.refl row⟩
  rintro cfg label after ⟨row', present, remains⟩ _ stepped
  rcases step_accounts stepped with same | ⟨_, _, _, executed⟩
  · rw [same]
    exact ⟨row', present, remains⟩
  · obtain ⟨row'', present, later⟩ := token_remains executed present
    exact ⟨row'', present, remains.trans later⟩

end Steps

section Death

def Dead (tokenID : String) (w : World) : Prop :=
  ∃ row ∈ w.accounts.tokens, row.id = tokenID ∧ row.live w.now = false

theorem Dead.reached {tokenID : String} {first last : Service} (dead : Dead tokenID first.world)
    (run : (machine e).Reaches anyStep first last) : Dead tokenID last.world := by
  obtain ⟨row, member, rfl, ended⟩ := dead
  obtain ⟨row', present, remains⟩ := remains_reached run member
  refine ⟨row', present, remains.id, ?_⟩
  have later := clock_reached run
  rw [Accounts.TokenRow.live, remains.expiresAt]
  rw [Accounts.TokenRow.live, Bool.and_eq_false_iff] at ended
  rw [Bool.and_eq_false_iff]
  rcases ended with revoked | expired
  · have revoked := remains.revoked (by simpa using revoked)
    exact .inl (by simpa using revoked)
  · right
    cases expiry : row.expiresAt with
    | none =>
        rw [expiry] at expired
        cases expired
    | some expiresAt =>
        rw [expiry] at expired
        simp only [Option.all_some, decide_eq_false_iff_not] at expired ⊢
        exact fun live => expired (lt_of_le_of_lt later live)

-- A request that came after the token's death has not found it.
theorem Dead.unfound {tokenID : String} {last final : Service} (dead : Dead tokenID last.world)
    (keyed : TokensKeyed last.world.accounts) (run : (machine e).Reaches anyStep last final) {index : Nat}
    {thread : ServiceThread} (late : last.threads.length ≤ index) (found : final.threads[index]? = some thread)
    {tokenHash : String} {owner : Accounts.TokenOwner}
    (saw : thread.log.Saw (.accounts (.sql (.selectTokenOwner tokenHash))) (.ok (some owner))) :
    owner.tokenID ≠ tokenID := by
  rintro rfl
  obtain ⟨middle, _, _, choice, before, _, executed, _⟩ := run.performed late found saw
  obtain ⟨row, member, same, ended⟩ := dead.reached before
  simp only [machine, exec, Option.map_eq_some_iff] at executed
  obtain ⟨⟨answer, accounts⟩, ran, ended'⟩ := executed
  obtain ⟨rfl, _⟩ := Prod.mk.inj ended'
  obtain ⟨row', member', same', live⟩ := exec_selectTokenOwner ran
  cases List.inj_on_of_nodup_map (keyed_reached keyed before) member member' (same.trans same'.symm)
  have live : row.live middle.world.now = true := live
  rw [ended] at live
  cases live

end Death

section Credentials

/-- The bearer token of a request behind `RequireAgentJWT` or `RequireAgentSignedSession`. -/
def Request.bearer : Request → String
  | .authMe _ authorization => AgentRuntime.bearerToken authorization
  | .agent (.createCheckout r) => AgentRuntime.bearerToken r.authorization
  | _ => ""

def Request.agentClaims (e : Environment) : Request → Handler (Option AgentRuntime.AgentClaims)
  | .authMe _ authorization => agentRuntimeClaimsFromRequest e authorization
  | .agent (.createCheckout r) => agents (AgentRuntime.signedAgentSessionClaimsFromRequest e.agents r)
  | _ => return none

def AgentAuthenticated (e : Environment) (thread : ServiceThread) (claims : AgentRuntime.AgentClaims) : Prop :=
  ∃ seen, Follows (thread.request.agentClaims e) [] (some claims) seen ∧ seen <:+ thread.log

/-- An agent comes with a live personal access token, or with an unexpired runtime token. -/
def Vouched (e : Environment) (bearer : String) (log : Log Reply) (claims : AgentRuntime.AgentClaims) : Prop :=
  (hasPrefix bearer "pkt_pat_" = true ∧ ∃ tokenHash owner,
    log.Saw (.accounts (.sql (.selectTokenOwner tokenHash))) (.ok (some owner)) ∧
      claims.agentPubkey = "pat:" ++ owner.tokenID) ∨
  (hasPrefix bearer "pkt_pat_" = false ∧ AgentRuntime.signedClaims e.agents bearer = some claims ∧
    ∃ now, log.Saw (.agents .now) now ∧ unix now < claims.expiresAt)

theorem Carries.lift {token : String} {log : Log AgentRuntime.Reply} {claims : AgentRuntime.AgentClaims}
    (carries : Carries e.agents token log claims) (plain : hasPrefix token "pkt_pat_" = false) (before : Log Reply) :
    Vouched e token (log.map (Entry.lift Op.agents) ++ before) claims := by
  obtain ⟨signed, now, saw, unexpired⟩ := carries
  exact .inr ⟨plain, signed, now, List.mem_append_left before (Log.Saw.lift Op.agents saw), unexpired⟩

theorem along_vouched (request : Request) :
    (request.agentClaims e).Along (fun _ _ => True)
      (fun log claims => ∀ agent, claims = some agent → Vouched e request.bearer log agent) [] := by
  have nobody : (pure none : Handler (Option AgentRuntime.AgentClaims)).Along (fun _ _ => True)
      (fun log claims => ∀ agent, claims = some agent → Vouched e request.bearer log agent) [] := by
    rw [Program.along_pure]
    nofun
  cases request with
  | authMe method authorization =>
      unfold Request.agentClaims agentRuntimeClaimsFromRequest
      dsimp only
      split
      · exact nobody
      · split
        · next looks =>
          refine (((along_foundToken e.accounts _ []).lift Op.accounts []).mono (fun _ _ _ => trivial)
            fun _ _ held => held).sequence fun log found _ held => ?_
          obtain ⟨seen, rfl, accepted⟩ := held
          split
          · rw [Program.along_pure]
            nofun
          · next pat =>
            obtain ⟨tokenHash, owner, saw, same⟩ := accepted pat rfl
            unfold timeNow
            rw [Program.along_perform_bind]
            refine ⟨trivial, fun now => ?_⟩
            rw [Program.along_pure]
            rintro _ ⟨⟩
            refine .inl ⟨looks, tokenHash, owner, ?_, by rw [same]⟩
            exact List.mem_cons_of_mem _ (List.mem_append_left [] (Log.Saw.lift Op.accounts saw))
        · next looks =>
          refine ((along_carries_jwt e.agents _).lift Op.agents []).mono (fun _ _ _ => trivial)
            fun log claims held agent same => ?_
          obtain ⟨seen, rfl, carried⟩ := held
          exact (carried agent same).lift (by simpa using looks) []
  | agent r =>
      cases r with
      | createCheckout r =>
          refine ((along_carries_signed e.agents r).lift Op.agents []).mono (fun _ _ _ => trivial)
            fun log claims held agent same => ?_
          obtain ⟨seen, rfl, carried⟩ := held
          exact (carried agent same).2.lift (carried agent same).1 []
      | _ => exact nobody
  | _ => exact nobody

def Settled (e : Environment) (request : Request) (log : Log Reply) : Answer → Prop
  | .agents (.token token _ _ _) => ∀ method body, request = .authPAT method body →
      ∃ issued, log.Saw (.agents .now) issued ∧ ∃ claims, AgentRuntime.signAgentJWT e.agents claims = some token ∧
        claims.expiresAt = unix (issued + 24 * 60 * minute)
  | .accounts (.tokenRevoked text) => ∀ cookie r, request = .account (.revokePAT cookie r) →
      ∃ claims seen, Follows (accounts (Accounts.sessionClaimsFromRequest e.accounts cookie)) [] (some claims) seen ∧
        seen <:+ log ∧ log.Saw (.accounts (.sql (.revokeToken text claims.userID))) (.ok ())
  | _ => True

theorem along_settled_revoke (cookie : Option String) (r : HttpRequest Accounts.AgentPATRevokeRequest) :
    (handler e (.account (.revokePAT cookie r))).Along (fun _ _ => True)
      (Settled e (.account (.revokePAT cookie r))) [] := by
  change (accounts (Accounts.requireSessionAuth e.accounts cookie fun claims => Accounts.revokeAgentPAT claims r) >>=
    fun answer => pure (Answer.accounts answer)).Along _ _ []
  unfold accounts Accounts.requireSessionAuth
  rw [Program.lift_bind, Program.along_bind, Program.along_bind]
  refine (along_follows (accounts (Accounts.sessionClaimsFromRequest e.accounts cookie)) []).mono
    (fun _ _ _ => trivial) fun log claims follows => ?_
  cases claims with
  | none =>
      change (Program.ret Accounts.unauthorized).Along _ _ log
      rw [Program.along_ret, Program.along_pure]
      trivial
  | some claims =>
      refine ((along_revoked claims r []).lift Op.accounts log).mono (fun _ _ _ => trivial) fun after answer held => ?_
      obtain ⟨seen, rfl, revoked⟩ := held
      rw [Program.along_pure]
      cases answer with
      | tokenRevoked text =>
          rintro _ _ ⟨⟩
          exact ⟨claims, log, follows, List.suffix_append _ _,
            List.mem_append_left log (Log.Saw.lift Op.accounts (revoked text rfl))⟩
      | _ => trivial

theorem along_settled_mint {method : String} {body : Option AgentPATTokenRequest} (agentID scope : String)
    (log : Log Reply) :
    (do return .agents (← agents (AgentRuntime.writeAgentAuthResponse e.agents agentID scope)) : Handler Answer).Along
      (fun _ _ => True) (Settled e (.authPAT method body)) log := by
  refine (((along_minted e.agents agentID scope).lift Op.agents log).mono (fun _ _ _ => trivial)
    fun _ _ held => held).sequence fun after answer _ held => ?_
  obtain ⟨seen, rfl, minted⟩ := held
  rw [Program.along_pure]
  cases answer with
  | token token id scope signed =>
      rintro _ _ ⟨⟩
      obtain ⟨issued, saw, claims⟩ := minted token id scope signed rfl
      exact ⟨issued, List.mem_append_left log (Log.Saw.lift Op.agents saw), claims⟩
  | _ => trivial

theorem along_settled_exchange (method : String) (body : Option AgentPATTokenRequest) :
    (handler e (.authPAT method body)).Along (fun _ _ => True) (Settled e (.authPAT method body)) [] := by
  unfold handler agentAuthPAT
  dsimp only
  split
  · rw [Program.along_pure]
    trivial
  · cases body with
    | none =>
        rw [Program.along_pure]
        trivial
    | some req =>
        dsimp only
        refine (Program.along_any _ []).sequence fun log found _ _ => ?_
        split
        · rw [Program.along_pure]
          trivial
        · split
          · split
            · rw [Program.along_pure]
              trivial
            · exact along_settled_mint _ _ log
          · exact along_settled_mint _ _ log

theorem along_settled (request : Request) :
    (handler e request).Along (fun _ _ => True) (Settled e request) [] := by
  have other (outside : ∀ log answer, Settled e request log answer) :
      (handler e request).Along (fun _ _ => True) (Settled e request) [] :=
    (Program.along_any _ []).mono (fun _ _ _ => trivial) fun log answer _ => outside log answer
  have quiet (exchanges : ∀ method body, request ≠ .authPAT method body)
      (revokes : ∀ cookie r, request ≠ .account (.revokePAT cookie r)) (log : Log Reply) (answer : Answer) :
      Settled e request log answer := by
    cases answer with
    | agents answer =>
        cases answer with
        | token => exact fun method body same => absurd same (exchanges method body)
        | _ => trivial
    | accounts answer =>
        cases answer with
        | tokenRevoked => exact fun cookie r same => absurd same (revokes cookie r)
        | _ => trivial
    | _ => trivial
  cases request with
  | account r =>
      cases r with
      | revokePAT cookie r => exact along_settled_revoke cookie r
      | _ => exact other (quiet nofun nofun)
  | authPAT method body => exact along_settled_exchange method body
  | _ => exact other (quiet nofun nofun)

end Credentials

section Lifetimes
variable {row : Accounts.TokenRow}

/-- The request exchanged this personal access token for this runtime token. -/
def Exchanged (e : Environment) (thread : ServiceThread) (tokenID token : String) : Prop :=
  (∃ method body pat seen, thread.request = .authPAT method (some body) ∧
    Follows (accounts (Accounts.personalAccessTokenAuthFromRaw e.accounts (trimSpace body.token))) [] (some pat)
      seen ∧ seen <:+ thread.log ∧ pat.tokenID = tokenID) ∧
  ∃ agentID scope signed, thread.program = .ret (.agents (.token token agentID scope signed))

/-- This user's request to revoke what the text names has been answered ok. -/
def Revoked (e : Environment) (thread : ServiceThread) (userID : Int64) (text : String) : Prop :=
  (∃ cookie r claims seen, thread.request = .account (.revokePAT cookie r) ∧
    Follows (accounts (Accounts.sessionClaimsFromRequest e.accounts cookie)) [] (some claims) seen ∧
      seen <:+ thread.log ∧ claims.userID = userID) ∧
  thread.program = .ret (.accounts (.tokenRevoked text))

/-- The token has expired, or its owner has had it revoked by a request that came after
it was there. -/
def Ended (e : Environment) (first last : Service) (row : Accounts.TokenRow) : Prop :=
  (∃ expiresAt, row.expiresAt = some expiresAt ∧ expiresAt ≤ last.world.now) ∨
  ∃ index thread text, first.threads.length ≤ index ∧ last.threads[index]? = some thread ∧
    Revoked e thread row.userID text ∧ e.accounts.uuidText text = some row.id

/-- The runtime token is read back as the claims it was made of, and does not look like a
personal access token. -/
structure Readable (e : AgentRuntime.Environment) (token : String) : Prop where
  plain : hasPrefix token "pkt_pat_" = false
  back : ∀ claims, AgentRuntime.signAgentJWT e claims = some token → AgentRuntime.signedClaims e token = some claims

theorem Ended.dead {first last : Service} (ended : Ended e first last row)
    (disciplined : Disciplined (fun _ _ _ => True) (Settled e) last) (run : (machine e).Reaches anyStep first last)
    (member : row ∈ first.world.accounts.tokens) : Dead row.id last.world := by
  rcases ended with ⟨expiresAt, expiry, passed⟩ | ⟨index, thread, text, late, found, revoked, named⟩
  · obtain ⟨row', present, remains⟩ := remains_reached run member
    refine ⟨row', present, remains.id, ?_⟩
    rw [Accounts.TokenRow.live, remains.expiresAt, expiry, Bool.and_eq_false_iff]
    right
    simp only [Option.all_some, decide_eq_false_iff_not]
    exact not_lt_of_ge passed
  · obtain ⟨⟨cookie, r, claims, seen, request, follows, within, user⟩, answered⟩ := revoked
    obtain ⟨claims', seen', follows', within', saw⟩ :=
      disciplined.ends (List.mem_of_getElem? found) answered cookie r request
    cases follows.unique follows' within within'
    rw [user] at saw
    obtain ⟨middle, _, after, choice, before, _, executed, since⟩ := run.performed late found saw
    obtain ⟨row', present, remains⟩ := remains_reached before member
    simp only [machine, exec, Option.map_eq_some_iff] at executed
    obtain ⟨⟨answer, accounts⟩, ran, same⟩ := executed
    obtain ⟨rfl, world⟩ := Prod.mk.inj same
    rw [← remains.userID] at ran
    obtain ⟨row'', present, remains', gone⟩ := exec_revokeToken ran (named.trans (congrArg some remains.id.symm)) present
    have present : row'' ∈ after.world.accounts.tokens := by
      rw [← world]
      exact present
    obtain ⟨last', present, remains''⟩ := remains_reached since present
    refine ⟨last', present, (remains.trans (remains'.trans remains'')).id, ?_⟩
    have gone := remains''.revoked gone
    rw [Accounts.TokenRow.live, Bool.and_eq_false_iff]
    exact .inl (by simpa using gone)

theorem unix_mono {t t' : Time} (later : t ≤ t') : unix t ≤ unix t' := by
  have seconds : t / second ≤ t' / second := Int.ediv_le_ediv (by decide) later
  unfold unix
  exact Int.sub_le_sub_right seconds _

theorem settled_reached (start : init.threads = []) (run : (machine e).Reaches anyStep init cfg) :
    Disciplined (fun _ _ _ => True) (Settled e) cfg := by
  apply run.disciplined along_settled
  intro thread member
  rw [start] at member
  cases member

/-- Any interleaving. Once a personal access token has expired, or its owner has had it
revoked, no request that comes later gets a runtime token from it or is let in by it; and
a runtime token lets nobody in any more 24 hours after it was issued from it. -/
theorem pat_credentials_expire (start : init.threads = []) (keyed : TokensKeyed init.world.accounts)
    (run : (machine e).Reaches anyStep init cfg) :
    (∀ row ∈ cfg.world.accounts.tokens, ∀ last, (machine e).Reaches anyStep cfg last → Ended e cfg last row →
      ∀ final, (machine e).Reaches anyStep last final → ∀ index thread, last.threads.length ≤ index →
        final.threads[index]? = some thread →
        (∀ token, ¬ Exchanged e thread row.id token) ∧
        ∀ claims, AgentAuthenticated e thread claims → hasPrefix thread.request.bearer "pkt_pat_" = true →
          claims.agentPubkey ≠ "pat:" ++ row.id) ∧
    (∀ thread ∈ cfg.threads, ∀ tokenID token, Exchanged e thread tokenID token →
      ∃ issued, thread.log.Saw (.agents .now) issued ∧ (Readable e.agents token →
        ∀ last, (machine e).Reaches anyStep cfg last → issued + 24 * 60 * minute ≤ last.world.now →
          ∀ final, (machine e).Reaches anyStep last final → ∀ index bearer, last.threads.length ≤ index →
            final.threads[index]? = some bearer → bearer.request.bearer = token →
              ∀ claims, ¬ AgentAuthenticated e bearer claims)) := by
  constructor
  · intro row member last since ended final later index thread late found
    have dead := ended.dead (settled_reached start (run.trans since)) since member
    have keyed := keyed_reached keyed (run.trans since)
    constructor
    · rintro token ⟨⟨method, body, pat, seen, request, follows, within, same⟩, _⟩
      obtain ⟨part, whole, accepted⟩ := ((along_foundToken e.accounts _ []).lift Op.accounts []).follows follows
      obtain ⟨tokenHash, owner, saw, owned⟩ := accepted pat rfl
      rw [whole] at within
      have read := within.subset (List.mem_append_left [] (Log.Saw.lift Op.accounts saw))
      exact dead.unfound keyed later late found read (owned.trans same)
    · rintro claims ⟨seen, follows, within⟩ looks same
      rcases (along_vouched thread.request).follows follows claims rfl with
        ⟨_, tokenHash, owner, saw, pubkey⟩ | ⟨plain, _⟩
      · rw [same] at pubkey
        exact dead.unfound keyed later late found (saw.mono within) ((String.append_right_inj _).mp pubkey).symm
      · rw [looks] at plain
        cases plain
  · rintro thread member tokenID token ⟨⟨method, body, _, _, request, _⟩, agentID, scope, signed, answered⟩
    obtain ⟨issued, saw, claims, made, expiry⟩ :=
      (settled_reached start run).ends member answered method (some body) request
    refine ⟨issued, saw, fun readable last since passed final later index bearer late found bears agent => ?_⟩
    rintro ⟨seen, follows, within⟩
    rcases (along_vouched bearer.request).follows follows agent rfl with ⟨looks, _⟩ | ⟨_, carried, now, read, unexpired⟩
    · rw [bears, readable.plain] at looks
      cases looks
    · rw [bears, readable.back claims made] at carried
      cases carried
      have expired := unix_mono (le_trans passed (saw_clock later late found (read.mono within)).1)
      rw [← expiry] at expired
      exact absurd unexpired (not_lt_of_ge expired)

end Lifetimes

section Deployment
open AgentRuntime (agentToken)
open AgentRuntime.Agents (agentPubkey sessionClaims)

def marshalSession (claims : AgentRuntime.AgentClaims) : Bytes :=
  if claims.agentPubkey = sessionClaims.agentPubkey ∧ claims.jti = sessionClaims.jti ∧
      claims.issuedAt = sessionClaims.issuedAt ∧ claims.expiresAt = sessionClaims.expiresAt ∧
      claims.scope = sessionClaims.scope then
    AgentRuntime.Agents.marshalClaims sessionClaims
  else []

def lending : Environment :=
  { environment with agents := { environment.agents with marshalClaims := marshalSession } }

def lentID : String := "d2b5c7e9-0f31-4a68-9b7d-3e5f1a2c4b6d"

def expiry : Time := 63889600000 * second

def lent : Service :=
  { world := { stored [] with
      accounts := { (stored []).accounts with
        tokens := (stored []).accounts.tokens.map fun row => { row with id := lentID }
        minted := [lentID] } }
    threads := [] }

theorem lent_keyed : TokensKeyed lent.world.accounts := by
  unfold TokensKeyed
  decide

theorem agentToken_signed : AgentRuntime.signAgentJWT lending.agents sessionClaims = some agentToken := by
  have text : lending.agents.marshalClaims sessionClaims = AgentRuntime.Agents.marshalClaims sessionClaims := by
    change marshalSession sessionClaims = _
    exact if_pos ⟨rfl, rfl, rfl, rfl, rfl⟩
  have issued := AgentRuntime.agentToken_issued
  rw [AgentRuntime.signAgentJWT] at issued ⊢
  rw [text]
  exact issued

theorem lending_signedClaims (token : String) : AgentRuntime.signedClaims lending.agents token =
    AgentRuntime.signedClaims AgentRuntime.Agents.environment token := rfl

theorem rawURLEncode_dotless (data : Bytes) : '.' ∉ (AgentRuntime.Agents.rawURLEncode data).toList := by
  intro dot
  obtain ⟨n, symbol⟩ := AgentRuntime.rawURLEncode_symbols dot
  exact (AgentRuntime.urlSymbol_plain n).1 symbol.symm

theorem split_signed {claims : AgentRuntime.AgentClaims} {token : String}
    (signed : AgentRuntime.signAgentJWT lending.agents claims = some token) :
    ∃ mac, split token '.' = [AgentRuntime.Agents.rawURLEncode AgentRuntime.Agents.jwtHeader,
      AgentRuntime.Agents.rawURLEncode (marshalSession claims), mac] := by
  have secret : AgentRuntime.agentJWTSecret lending.agents ≠ "" := AgentRuntime.agentToken_texts.2.2
  rw [AgentRuntime.signAgentJWT, if_neg secret] at signed
  cases signed
  exact ⟨_, split_dotted (rawURLEncode_dotless _) (rawURLEncode_dotless _) (rawURLEncode_dotless _)⟩

theorem agentToken_readable : Readable lending.agents agentToken where
  plain := by
    obtain ⟨rest, runes⟩ := List.head?_eq_some_iff.mp AgentRuntime.agentToken_first
    rw [hasPrefix, runes]
    rfl
  back claims signed := by
    obtain ⟨_, parts⟩ := split_signed signed
    obtain ⟨_, parts'⟩ := split_signed agentToken_signed
    rw [parts] at parts'
    simp only [List.cons.injEq, true_and] at parts'
    have payload := String.ofList_injective parts'.1
    have text : marshalSession sessionClaims = AgentRuntime.Agents.marshalClaims sessionClaims :=
      if_pos ⟨rfl, rfl, rfl, rfl, rfl⟩
    rw [text] at payload
    by_cases session : claims.agentPubkey = sessionClaims.agentPubkey ∧ claims.jti = sessionClaims.jti ∧
      claims.issuedAt = sessionClaims.issuedAt ∧ claims.expiresAt = sessionClaims.expiresAt ∧
      claims.scope = sessionClaims.scope
    · have same : claims = sessionClaims := by
        cases claims
        simp only [sessionClaims, AgentRuntime.AgentClaims.mk.injEq]
        exact session
      rw [same, lending_signedClaims]
      exact AgentRuntime.agentToken_claims
    · -- Any other claims make a token without a payload.
      have empty : marshalSession claims = [] := if_neg session
      have first := AgentRuntime.agentToken_texts.2.1
      rw [← payload, empty] at first
      cases first

def exchange : Request := .authPAT "POST" (some ⟨aliceToken, agentPubkey⟩)

def bearing : Request := .authMe "GET" ("Bearer " ++ agentToken)

def drawing (uuid : String) : Choice := ⟨none, some uuid, none, .unavailable, .unreachable⟩

abbrev Taken : (op : Op) → World → Reply op → World → Prop := (machine lending).performing fun _ => True

theorem aliceToken_texts : trimSpace aliceToken = aliceToken ∧ hasPrefix aliceToken "pkt_pat_" = true ∧
    trimSpace agentPubkey = agentPubkey ∧ isSessionPubkey lending agentPubkey = true := by
  decide +kernel

def lentOwner : Accounts.TokenOwner := ⟨lentID, 1, Accounts.aliceAddress, "agent:runtime"⟩

theorem aliceToken_owner :
    Accounts.tokenOwner { lent.world.accounts with now := lent.world.now } tokenHash = some lentOwner := by
  simp only [Accounts.tokenOwner, lent, stored, List.map, List.find?]
  rfl

-- Alice's token is found, and nothing is made of the agent yet.
theorem aliceToken_accepted : ∃ pat w log,
    Traces Taken (accounts (Accounts.personalAccessTokenAuthFromRaw lending.accounts (trimSpace aliceToken)))
      lent.world [] (some pat) w log ∧
    pat.tokenID = lentID ∧ w.core = lent.world.core ∧ w.agents = lent.world.agents ∧
    ∃ row ∈ w.accounts.tokens, row.id = lentID ∧ row.expiresAt = some expiry := by
  have select : exec lending sound (.accounts (.sql (.selectTokenOwner tokenHash))) lent.world =
      some (.ok (some lentOwner), { lent.world with
        accounts := { lent.world.accounts with now := lent.world.now } }) := by
    simp only [exec, Accounts.exec, sound, Accounts.runSql, aliceToken_owner]
    rfl
  rw [aliceToken_texts.1, Accounts.personalAccessTokenAuthFromRaw]
  simp only [aliceToken_texts.1, aliceToken_texts.2.1, Bool.not_true, Bool.false_eq_true, if_false]
  refine ⟨_, _, _, .call ⟨sound, trivial, select⟩ (.call ⟨sound, trivial, rfl⟩
    (.call ⟨sound, trivial, rfl⟩ (.ret _ _ _))), rfl, rfl, rfl, ?_⟩
  exact ⟨_, List.mem_singleton_self _, rfl, rfl⟩

def agentSession (issued : Time) : AgentRuntime.AgentSessionRow :=
  ⟨"9b2f7c10-4a6d-4e8b-b1c3-5d7e9f012345", agentPubkey, sessionClaims.jti, issued + 24 * 60 * minute, none⟩

-- A runtime token is issued, and its session recorded.
theorem token_minted {w : World} {issued : Time} {token : String} (log : Log Reply) (now : w.now = issued)
    (agents_are : w.agents = lent.world.agents)
    (minted : AgentRuntime.signAgentJWT lending.agents ⟨agentPubkey, sessionClaims.jti, unix issued,
      unix (issued + 24 * 60 * minute), "agent:settlement"⟩ = some token) :
    ∃ w' later, Traces Taken (agents (AgentRuntime.writeAgentAuthResponse lending.agents agentPubkey "agent:settlement"))
      w log (.token token agentPubkey "agent:settlement" true) w' later ∧
      w'.core = w.core ∧ w'.accounts = w.accounts ∧ w'.agents.sessions = [agentSession issued] := by
  obtain ⟨core, keys, accounts, agents, limiter⟩ := w
  cases agents_are
  cases now
  dsimp only [World.now] at minted
  refine ⟨⟨core, keys, accounts, ⟨[], [agentSession core.now], [], [], core.now, [(agentSession 0).id, sessionClaims.jti]⟩, limiter⟩,
    ?_, ?traces, rfl, rfl, rfl⟩
  case traces =>
    apply Traces.call ⟨drawing sessionClaims.jti, trivial, rfl⟩
    apply Traces.call ⟨sound, trivial, rfl⟩
    apply Traces.call ⟨sound, trivial, rfl⟩
    simp only [World.now, Program.bind, minted]
    apply Traces.call ⟨drawing (agentSession 0).id, trivial, rfl⟩
    apply Traces.call ⟨sound, trivial, rfl⟩
    exact .ret _ _ _

theorem agentToken_some : agentToken ≠ "" := by
  intro none
  have first := AgentRuntime.agentToken_first
  rw [none] at first
  cases first

/-- The runtime token lets its bearer in until it expires, whatever has become of alice's. -/
theorem agentToken_admitted {w : World} {time issued : Time} (clock : w.now = time)
    (sessions : w.agents.sessions = [agentSession issued]) (unexpired : unix time < sessionClaims.expiresAt)
    (live : time < issued + 24 * 60 * minute) :
    ∃ w' later, Traces Taken (agentRuntimeClaimsFromRequest lending ("Bearer " ++ agentToken)) w []
      (some sessionClaims) w' later := by
  rw [agentRuntimeClaimsFromRequest, AgentRuntime.bearerToken_bearer agentToken_some AgentRuntime.agentToken_plain]
  simp only [if_neg agentToken_some, agentToken_readable.plain, Bool.false_eq_true, if_false]
  rw [AgentRuntime.jwtBackedAgentClaimsFromRequest, AgentRuntime.parseAndVerifyAgentJWT,
    agentToken_readable.back _ agentToken_signed]
  obtain ⟨core, keys, accounts, ⟨nonces, _, policies, intents, _, ids⟩, limiter⟩ := w
  cases clock
  cases sessions
  dsimp only [World.now] at unexpired live
  have named : ¬ (sessionClaims.agentPubkey = "" ∨ sessionClaims.jti = "") := by decide
  have found : ([agentSession issued].any fun row => row.jti = sessionClaims.jti &&
      (row.agentPubkey = sessionClaims.agentPubkey && (row.revokedAt.isNone && core.now < row.expiresAt))) = true := by
    simp only [agentSession, sessionClaims, List.any_cons, decide_true, Option.isNone_none, Bool.true_and,
      decide_eq_true live, Bool.true_or]
  refine ⟨⟨core, keys, accounts, ⟨nonces, [agentSession issued], policies, intents, core.now, ids⟩, limiter⟩, ?_, ?traces⟩
  case traces =>
    simp only [if_neg named]
    apply Traces.call ⟨sound, trivial, rfl⟩
    dsimp only [World.now]
    have reads : (if sessionClaims.expiresAt ≤ unix core.now then (pure none : AgentRuntime.Handler _)
        else pure (some sessionClaims)) = pure (some sessionClaims) := if_neg (not_le_of_gt unexpired)
    simp only [Program.bind, reads]
    have executed : exec lending sound (.agents (.sql (.agentSessionLive sessionClaims.jti sessionClaims.agentPubkey)))
        ⟨core, keys, accounts, ⟨nonces, [agentSession issued], policies, intents, core.now, ids⟩, limiter⟩ =
        some (.ok true, ⟨core, keys, accounts,
          ⟨nonces, [agentSession issued], policies, intents, core.now, ids⟩, limiter⟩) := by
      simp only [exec, sound, AgentRuntime.exec, AgentRuntime.runSql, World.now]
      exact congrArg (fun answer => some (Except.ok answer, _)) found
    apply Traces.call ⟨sound, trivial, executed⟩
    apply Traces.call ⟨sound, trivial, rfl⟩
    exact .ret _ _ _

-- Alice's agent gets a runtime token from hers.
theorem exchange_reaches : ∃ (middle : Service) (thread : ServiceThread),
    (machine lending).Reaches anyStep lent middle ∧ middle.threads = [thread] ∧ idle middle = true ∧
    Exchanged lending thread lentID agentToken ∧ middle.world.now = lent.world.now ∧
    middle.world.agents.sessions = [agentSession lent.world.now] ∧
    ∃ row ∈ middle.world.accounts.tokens, row.id = lentID ∧ row.expiresAt = some expiry := by
  obtain ⟨pat, w, log, accepted, hers, core, agents_are, row⟩ := aliceToken_accepted
  have clock : w.now = lent.world.now := congrArg Payknot.World.now core
  obtain ⟨w', later, minted, core', accounts', sessions⟩ := token_minted log clock agents_are agentToken_signed
  have named : agentPubkey ≠ "" := by decide
  have served : Traces Taken ((machine lending).handler exchange) lent.world []
      (.agents (.token agentToken agentPubkey "agent:settlement" true)) w' later := by
    dsimp only [machine, handler, exchange]
    unfold agentAuthPAT
    rw [if_neg (by simp)]
    dsimp only
    refine accepted.bind ?_
    simp only [aliceToken_texts.2.2.1, aliceToken_texts.2.2.2, ne_eq, named, not_false_eq_true, if_true, Bool.not_true,
      Bool.false_eq_true, if_false]
    exact minted.bind (.ret _ _ _)
  have grown : log <:+ later := minted.follows.grown
  refine ⟨⟨w', [⟨exchange, later, .ret (.agents (.token agentToken agentPubkey "agent:settlement" true))⟩]⟩, _,
    (traces_serves rfl served).any, rfl, rfl, ⟨⟨"POST", _, pat, log, rfl, accepted.follows, grown, hers⟩, _, _, _, rfl⟩,
    congrArg Payknot.World.now (core'.trans core), sessions, ?_⟩
  rw [accounts']
  exact row

theorem bearing_bearer : bearing.bearer = agentToken := by
  simp only [bearing, Request.bearer]
  exact AgentRuntime.bearerToken_bearer agentToken_some AgentRuntime.agentToken_plain

theorem bearing_claims : bearing.agentClaims lending = agentRuntimeClaimsFromRequest lending ("Bearer " ++ agentToken) := by
  simp only [bearing, Request.agentClaims]

-- It is let in, whenever that is before the runtime token expires.
theorem bearing_reaches {cfg : Service} {time issued : Time} (resting : idle cfg = true) (clock : cfg.world.now = time)
    (sessions : cfg.world.agents.sessions = [agentSession issued]) (unexpired : unix time < sessionClaims.expiresAt)
    (live : time < issued + 24 * 60 * minute) :
    ∃ (last : Service) (thread : ServiceThread), (machine lending).Reaches anyStep cfg last ∧
      last.threads[cfg.threads.length]? = some thread ∧ thread.request.bearer = agentToken ∧
      AgentAuthenticated lending thread sessionClaims := by
  obtain ⟨w, later, admitted⟩ := agentToken_admitted clock sessions unexpired live
  obtain ⟨answer, served⟩ : ∃ answer, Traces Taken (agentAuthMe lending "GET" ("Bearer " ++ agentToken)) cfg.world []
      answer w later := by
    refine ⟨.agent ⟨sessionClaims.agentPubkey, sessionClaims.scope, sessionClaims.issuedAt, sessionClaims.expiresAt,
      authMethodForAgent lending sessionClaims.agentPubkey⟩, admitted.bind ?_⟩
    dsimp only
    rw [if_neg (by simp)]
    exact .ret _ _ _
  have handled : Traces Taken ((machine lending).handler bearing) cfg.world [] answer w later := served
  have reached := (traces_serves resting handled).any
  refine ⟨_, ⟨bearing, later, .ret answer⟩, reached, by simp, ?_, ?_⟩
  · exact bearing_bearer
  · refine ⟨later, ?_, List.suffix_refl _⟩
    rw [bearing_claims]
    exact admitted.follows

theorem waited_reaches (cfg : Service) (elapsed : Nat) : ∃ later, (machine lending).Reaches anyStep cfg later ∧
    later.threads = cfg.threads ∧ later.world.now = cfg.world.now + elapsed ∧
    later.world.agents = cfg.world.agents := by
  have stepped : (machine lending).next cfg (.event (.tick elapsed)) = some _ := rfl
  exact ⟨_, .tail _ (.refl _) trivial stepped, rfl, rfl, rfl⟩

/-- A day later neither alice's token nor the runtime token is any good. -/
theorem pat_credentials_expire_alice : ∃ (middle last : Service) (issuing : ServiceThread),
    (machine lending).Reaches anyStep lent middle ∧ issuing ∈ middle.threads ∧
    Exchanged lending issuing lentID agentToken ∧ (machine lending).Reaches anyStep middle last ∧
    ∀ final, (machine lending).Reaches anyStep last final → ∀ index thread, last.threads.length ≤ index →
      final.threads[index]? = some thread → (∀ token, ¬ Exchanged lending thread lentID token) ∧
        (thread.request.bearer = agentToken → ∀ claims, ¬ AgentAuthenticated lending thread claims) := by
  obtain ⟨middle, issuing, run, threads, _, exchanged, now, _, row, stored, same, expires⟩ := exchange_reaches
  have member : issuing ∈ middle.threads := by
    rw [threads]
    exact List.mem_singleton_self _
  obtain ⟨last, waited, _, time, _⟩ := waited_reaches middle (24 * 60 * 60000000000)
  have guarantees := pat_credentials_expire (e := lending) rfl lent_keyed run
  obtain ⟨issued, saw, ends⟩ := guarantees.2 issuing member lentID agentToken exchanged
  have clock : issued ≤ middle.world.now := by
    obtain ⟨index, found⟩ := List.mem_iff_getElem?.mp member
    exact (saw_clock run (Nat.zero_le index) found saw).2
  have expired : Ended lending middle last row := by
    refine .inl ⟨expiry, expires, ?_⟩
    rw [time, now]
    decide
  have passed : issued + 24 * 60 * minute ≤ last.world.now := by
    rw [time]
    exact Int.add_le_add_right clock _
  refine ⟨middle, last, issuing, run, member, exchanged, waited, fun final later index thread late found => ⟨?_, ?_⟩⟩
  · rw [← same]
    exact (guarantees.1 row stored last waited expired final later index thread late found).1
  · exact ends agentToken_readable last waited passed final later index thread late found

/-- Alice's token has expired; the runtime token it was exchanged for opens the door. -/
theorem jwt_outlives_token : ∃ (middle last final : Service) (issuing bearer : ServiceThread) (row : Accounts.TokenRow)
    (index : Nat) (claims : AgentRuntime.AgentClaims),
    (machine lending).Reaches anyStep lent middle ∧ issuing ∈ middle.threads ∧
    Exchanged lending issuing row.id agentToken ∧ row ∈ middle.world.accounts.tokens ∧
    (machine lending).Reaches anyStep middle last ∧ Ended lending middle last row ∧
    (machine lending).Reaches anyStep last final ∧ last.threads.length ≤ index ∧
    final.threads[index]? = some bearer ∧ bearer.request.bearer = agentToken ∧
    AgentAuthenticated lending bearer claims := by
  obtain ⟨middle, issuing, run, threads, resting, exchanged, now, sessions, row, stored, same, expires⟩ := exchange_reaches
  have member : issuing ∈ middle.threads := by
    rw [threads]
    exact List.mem_singleton_self _
  obtain ⟨last, waited, kept, time, agents_kept⟩ := waited_reaches middle (60 * 60000000000)
  have clock : last.world.now = lent.world.now + 60 * minute := by
    rw [time, now]
    rfl
  have idle_last : idle last = true := by
    rw [idle, kept]
    exact resting
  have expired : Ended lending middle last row := by
    refine .inl ⟨expiry, expires, ?_⟩
    rw [clock]
    decide
  obtain ⟨final, bearer, served, found, bears, authenticated⟩ :=
    bearing_reaches idle_last clock (agents_kept ▸ sessions) (by decide) (by decide)
  rw [← same] at exchanged
  exact ⟨middle, last, final, issuing, bearer, row, _, sessionClaims, run, member, exchanged, stored, waited, expired,
    served, le_refl _, found, bears, authenticated⟩

end Deployment

end Payknot.Server
