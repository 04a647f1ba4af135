import Payknot.EmailedTokens

/-! Password accounts. Registration leaves an account unverified; the emailed token
verifies it, and so does the UPDATE a Google sign-in makes before it looks at the
account's provider. -/
namespace Payknot.Accounts
open GoText Interleaving Machine

variable {e : Environment} {cfg after : Service} {label : ServiceLabel} {w : World} {id : Int64}

def UserRow.Verified (row : UserRow) : Prop := row.authProvider = .password ∧ row.emailVerified = true

/-- A request presented the token mailed to this account, and its UPDATE found a user. -/
def TokenConsumed (e : Environment) (id : Int64) (cfg : Service) : Prop :=
  ∃ holder ∈ cfg.threads, ∃ token expiresAt, Drew token holder ∧
    StoredFor e .verification token id expiresAt holder ∧
    ∃ thread ∈ cfg.threads, ∃ presented, Redeemed e .verification presented thread ∧
      hashToken e presented = hashToken e token

/-- No Google sign-in updates a password account that is unverified. -/
def SparesUnverified (cfg : Service) (label : ServiceLabel) : Prop :=
  ∀ index choice thread name id, label = .step index choice → choice.fault = none →
    cfg.threads[index]? = some thread → thread.Issues (.sql (.refreshGoogleUser name id)) →
      ∀ row ∈ cfg.world.users, row.id = id → row.authProvider = .password → row.emailVerified = true

theorem TokenConsumed.next (consumed : TokenConsumed e id cfg)
    (stepped : (machine e).next cfg label = some after) : TokenConsumed e id after := by
  obtain ⟨holder, present, token, expiresAt, drew, stored, thread, member, presented,
    ⟨presents, entry, among, redeems⟩, same⟩ := consumed
  obtain ⟨i, at_i⟩ := List.mem_iff_getElem?.mp present
  obtain ⟨j, at_j⟩ := List.mem_iff_getElem?.mp member
  obtain ⟨holder', still, _, grown⟩ := thread_kept stepped at_i
  obtain ⟨thread', still', request, grown'⟩ := thread_kept stepped at_j
  exact ⟨holder', List.mem_of_getElem? still, token, expiresAt, drew.mono grown, stored.mono grown, thread',
    List.mem_of_getElem? still', presented, ⟨request ▸ presents, entry, grown'.subset among, redeems⟩, same⟩

/-- Where a verified password account comes from: it was one, its token was redeemed, or
Google's UPDATE made it one. -/
theorem verified_after {entry : Entry Reply} {w' : World} (effect : Effect w entry w') {row : UserRow}
    (member : row ∈ w'.users) (verified : row.Verified) :
    ∃ old ∈ w.users, old.id = row.id ∧ old.authProvider = .password ∧ (old.emailVerified = true ∨
      (∃ hash affected held, entry = ⟨.sql (.verifyEmail hash), .ok affected⟩ ∧ 0 < affected ∧
        old.stored .verification = some held ∧ held.hash = hash) ∨
      old.emailVerified = false ∧ ∃ name, entry = ⟨.sql (.refreshGoogleUser name row.id), .ok ()⟩) := by
  obtain ⟨own, verified⟩ := verified
  cases effect with
  | quiet _ users => exact ⟨row, users ▸ member, rfl, own, .inl verified⟩
  | drawn => exact ⟨row, member, rfl, own, .inl verified⟩
  | registered =>
      rcases List.mem_append.mp member with old | new
      · exact ⟨row, old, rfl, own, .inl verified⟩
      · rw [List.mem_singleton.mp new] at verified
        cases verified
  | signedUp =>
      rcases List.mem_append.mp member with old | new
      · exact ⟨row, old, rfl, own, .inl verified⟩
      · rw [List.mem_singleton.mp new] at own
        cases own
  | refreshed name id =>
      obtain ⟨old, among, ⟨named, rfl⟩ | ⟨_, rfl⟩⟩ := mem_updateWhere member
      · refine ⟨old, among, rfl, own, ?_⟩
        cases before : old.emailVerified with
        | true => exact .inl rfl
        | false =>
            have named : old.id = id := of_decide_eq_true named
            exact .inr (.inr ⟨rfl, name, by rw [← named]; rfl⟩)
      · exact ⟨row, among, rfl, own, .inl verified⟩
  | stored kind token id =>
      obtain ⟨old, among, ⟨_, rfl⟩ | ⟨_, rfl⟩⟩ := mem_updateWhere member
      · cases kind <;> exact ⟨old, among, rfl, own, .inl verified⟩
      · exact ⟨row, among, rfl, own, .inl verified⟩
  | verified hash =>
      obtain ⟨old, among, ⟨taken, rfl⟩ | ⟨_, rfl⟩⟩ := mem_updateWhere member
      · obtain ⟨held, has, same, _⟩ : ∃ held, old.stored .verification = some held ∧ held.hash = hash ∧
            w.now < held.expiresAt := by
          have holds := (Bool.and_eq_true_iff.mp taken).1
          simpa [UserRow.holds, Option.any_eq_true] using holds
        exact ⟨old, among, rfl, own, .inr (.inl ⟨hash, _, held, rfl,
          List.countP_pos_iff.mpr ⟨old, among, taken⟩, has, same⟩)⟩
      · exact ⟨row, among, rfl, own, .inl verified⟩
  | reset passwordHash hash =>
      obtain ⟨old, among, ⟨_, rfl⟩ | ⟨_, rfl⟩⟩ := mem_updateWhere member
      · exact ⟨old, among, rfl, own, .inl verified⟩
      · exact ⟨row, among, rfl, own, .inl verified⟩

/-- Every password account found verified, in the table or by a request that read it,
had its token consumed. -/
structure Proven (e : Environment) (cfg : Service) : Prop where
  book : Book e cfg
  rows : ∀ row ∈ cfg.world.users, row.Verified → TokenConsumed e row.id cfg
  read : ∀ thread ∈ cfg.threads, ∀ email row,
    thread.log.Saw (.sql (.selectUserByEmail email)) (.ok (some row)) → row.Verified →
      TokenConsumed e row.id cfg

-- The step that redeems a token leaves it consumed.
theorem consumed_now (book : Book e cfg) {index : Nat} {thread : ServiceThread} {op : Op}
    {rest : Reply op → Program Reply Answer} {reply : Reply op} {world : World}
    (at_index : cfg.threads[index]? = some thread) (program : thread.program = .call op rest)
    (stepped : (machine e).next cfg label = some after)
    (resumed : after = ⟨world, cfg.threads.set index (thread.resumed op reply rest)⟩)
    {old : UserRow} (among : old ∈ cfg.world.users) {hash : String} {affected : Nat} {held : StoredToken}
    (entry : (⟨op, reply⟩ : Entry Reply) = ⟨.sql (.verifyEmail hash), .ok affected⟩) (some_row : 0 < affected)
    (has : old.stored .verification = some held) (same : held.hash = hash) : TokenConsumed e old.id after := by
  obtain ⟨holder, present, saw⟩ := book.issued old among .verification held has
  obtain ⟨_, token, drew, hashed⟩ := book.drawer present saw
  cases entry
  obtain ⟨presented, presents, rfl⟩ :=
    book.disciplined.issues (List.mem_of_getElem? at_index) ⟨rest, program⟩
  obtain ⟨i, at_i⟩ := List.mem_iff_getElem?.mp present
  obtain ⟨holder', still, _, grown⟩ := thread_kept stepped at_i
  have inside := (List.getElem?_eq_some_iff.mp at_index).1
  have redeemed : Redeemed e .verification presented
      (thread.resumed (.sql (.verifyEmail (hashToken e presented))) (.ok affected) rest) :=
    ⟨presents, _, List.mem_cons_self, affected, some_row, rfl⟩
  refine ⟨holder', List.mem_of_getElem? still, token, held.expiresAt, drew.mono grown, ?_, _, ?_, presented,
    redeemed, same.symm.trans hashed⟩
  · rw [StoredFor, ← hashed]
    exact saw.mono grown
  · rw [resumed]
    exact List.mem_of_getElem? (List.getElem?_set_self inside)

theorem Proven.next (proven : Proven e cfg) (spares : SparesUnverified cfg label)
    (stepped : (machine e).next cfg label = some after) : Proven e after := by
  constructor
  · exact proven.book.next stepped
  · intro row member verified
    rcases next_cases stepped with ⟨_, _, rfl⟩ | ⟨_, _, _, occurred, rfl⟩ |
      ⟨index, choice, thread, op, rest, reply, world, step, at_index, program, executed, rfl⟩
    · exact (proven.rows row member verified).next stepped
    · cases occurred
      exact (proven.rows row member verified).next stepped
    · obtain ⟨old, among, same, own, before⟩ := verified_after (exec_effect executed) member verified
      rw [← same]
      rcases before with before | ⟨hash, affected, held, entry, some_row, has, hashed⟩ | ⟨unverified, name, entry⟩
      · exact (proven.rows old among ⟨own, before⟩).next stepped
      · exact consumed_now proven.book at_index program stepped rfl among entry some_row has hashed
      -- Google's UPDATE is not made on such an account.
      · cases entry
        have sound : choice.fault = none := by
          rcases exec_sql executed with ⟨⟨fault, failed⟩, _⟩ | ⟨_, _, _⟩
          · cases failed
          · cases fault : choice.fault with
            | none => rfl
            | some fault => simp [machine, exec, fault] at executed
        have spared := spares index choice thread name row.id step sound at_index ⟨rest, program⟩ old among same own
        rw [unverified] at spared
        cases spared
  · intro current member email row saw verified
    obtain ⟨index, found⟩ := List.mem_iff_getElem?.mp member
    rcases saw_after stepped found saw with ⟨thread, old, _, saw⟩ |
      ⟨choice, thread, rest, _, _, _, executed, _⟩
    · exact (proven.read thread (List.mem_of_getElem? old) email row saw verified).next stepped
    · have present : row ∈ cfg.world.users := by
        rcases exec_sql executed with ⟨⟨_, failed⟩, _⟩ | ⟨value, same, ran⟩
        · cases failed
        · cases same
          simp only [runSql, Except.ok.injEq, Prod.mk.injEq] at ran
          exact List.mem_of_find?_eq_some ran.1
      exact (proven.rows row present verified).next stepped

theorem Fresh.proven (start : Fresh cfg) : Proven e cfg := by
  constructor
  · exact start.book
  · intro row member
    rw [start.users] at member
    cases member
  · intro thread member
    rw [start.threads] at member
    cases member

/-- Any interleaving in which no Google sign-in updates an unverified password account:
every verified password account had its emailed token consumed, and so had every account
a password login opens a session for. -/
theorem password_accounts_verified {first last : Service} (start : Fresh first)
    (run : (machine e).Reaches SparesUnverified first last) :
    (∀ row ∈ last.world.users, row.authProvider = .password → row.emailVerified = true →
      TokenConsumed e row.id last) ∧
    (∀ thread ∈ last.threads, ∀ (r : HttpRequest LoginRequest) (sessionID : String) (userID : Int64)
      (expiresAt : Time), thread.request = .login r →
        thread.log.Saw (.sql (.insertUserSession sessionID userID expiresAt)) (.ok ()) →
          TokenConsumed e userID last) := by
  have proven : Proven e last :=
    run.invariant _ start.proven fun _ _ _ proven spares stepped => proven.next spares stepped
  constructor
  · intro row member own verified
    exact proven.rows row member ⟨own, verified⟩
  · intro thread member r sessionID userID expiresAt request saw
    obtain ⟨earlier, within, reads⟩ := proven.book.justified.saw member saw
    obtain ⟨email, row, found, rfl, own, verified⟩ := reads r request
    exact proven.read thread member email row (found.mono within) ⟨own, verified⟩

section Takeover

def noRefresh (cfg : Service) (label : ServiceLabel) : Bool :=
  match performed cfg label with
  | some (.sql (.refreshGoogleUser _ _)) => false
  | _ => true

theorem spares_of_noRefresh (quiet : noRefresh cfg label = true) : SparesUnverified cfg label := by
  intro index choice thread name id step _ at_index issues
  have refreshes : performed cfg label = some (.sql (.refreshGoogleUser name id)) :=
    Performs.performed ⟨⟨choice, step⟩, at_index, issues⟩
  simp [noRefresh, refreshes] at quiet

def verifiedRow (cfg : Service) : Bool :=
  match cfg.world.users with
  | [row] => row.id = 1 && (row.authProvider = .password && row.emailVerified)
  | _ => false

theorem verifiedRow_of (one : verifiedRow cfg = true) :
    ∃ row ∈ cfg.world.users, row.id = 1 ∧ row.authProvider = .password ∧ row.emailVerified = true := by
  unfold verifiedRow at one
  split at one
  · next row rows =>
    simp only [Bool.and_eq_true, decide_eq_true_eq] at one
    exact ⟨row, by simp [rows], one⟩
  · cases one

/-- Alice opens the link: her account is verified, by the general result through her token. -/
theorem password_accounts_verified_alice : ∃ last : Service,
    (∃ row ∈ last.world.users, row.id = 1 ∧ row.emailVerified = true) ∧ TokenConsumed environment 1 last := by
  obtain ⟨last, run, done⟩ := run_meets (machine environment) noRefresh
    (registration 0 ++ .arrive verifyAlice :: steps 1 1) opening verifiedRow (by decide +kernel)
  obtain ⟨row, member, first, own, verified⟩ := verifiedRow_of done
  have held := password_accounts_verified opening_fresh (run.mono fun _ _ => spares_of_noRefresh)
  have consumed := held.1 row member own verified
  rw [first] at consumed
  exact ⟨last, ⟨row, member, first, verified⟩, consumed⟩

def googleAlice : Request := .googleLogin ⟨.post, some ⟨"credential"⟩⟩

def identified : Choice := { sound with google := .payload ⟨"", aliceAddress, "Alice", "true"⟩ }

def loginAlice : Request := .login ⟨.post, some ⟨aliceAddress, alicePassword⟩⟩

def noToken (cfg : Service) : Bool :=
  cfg.threads.all fun thread => match thread.request with
    | .verifyEmail _ => false
    | _ => true

theorem not_consumed (none_presented : noToken cfg = true) : ¬ TokenConsumed e id cfg := by
  rintro ⟨_, _, _, _, _, _, thread, member, _, ⟨⟨r, req, request, _⟩, _⟩, _⟩
  have quiet := List.all_eq_true.mp none_presented thread member
  simp [request] at quiet

def openedBy (cfg : Service) (index : Nat) (id : Int64) : Bool :=
  match cfg.threads[index]? with
  | some ⟨.login _, log, .ret (.session _ _)⟩ => log.any fun
      | ⟨.sql (.insertUserSession _ userID _), .ok _⟩ => userID = id
      | _ => false
  | _ => false

theorem openedBy_of {index : Nat} (opened : openedBy cfg index id = true) :
    ∃ thread ∈ cfg.threads, ∃ r sessionID expiresAt cookie user, thread.request = .login r ∧
      thread.log.Saw (.sql (.insertUserSession sessionID id expiresAt)) (.ok ()) ∧
      thread.program = .ret (.session cookie user) := by
  unfold openedBy at opened
  split at opened
  · next found =>
    obtain ⟨entry, member, inserted⟩ := List.any_eq_true.mp opened
    split at inserted
    · have same := of_decide_eq_true inserted
      subst same
      exact ⟨_, List.mem_of_getElem? found, _, _, _, _, _, rfl, member, rfl⟩
    · cases inserted
  · cases opened

/-- Someone registers Alice's address, Alice signs in with Google and is refused, and the
registrant logs in: the account is verified and no emailed token was ever presented. -/
theorem unverified_account_taken_over : ∃ last : Service,
    Fresh opening ∧ (machine environment).Reaches (fun cfg label => oneAtATime cfg label = true) opening last ∧
    (∃ row ∈ last.world.users, row.id = 1 ∧ row.authProvider = .password ∧ row.emailVerified = true) ∧
    (∃ thread ∈ last.threads, ∃ r sessionID expiresAt cookie user, thread.request = .login r ∧
      thread.log.Saw (.sql (.insertUserSession sessionID 1 expiresAt)) (.ok ()) ∧
      thread.program = .ret (.session cookie user)) ∧
    ¬ TokenConsumed environment 1 last := by
  obtain ⟨last, run, done⟩ := run_meets (machine environment) oneAtATime
    (registration 0 ++ [.arrive googleAlice, .step 1 identified] ++ steps 1 2 ++
      .arrive loginAlice :: steps 2 1 ++ random aliceSession.sessionID 2 :: steps 2 3) opening
    (fun last => verifiedRow last && (openedBy last 2 1 && noToken last)) (by decide +kernel)
  simp only [Bool.and_eq_true] at done
  exact ⟨last, opening_fresh, run, verifiedRow_of done.1, openedBy_of done.2.1, not_consumed done.2.2⟩

end Takeover
end Payknot.Accounts
