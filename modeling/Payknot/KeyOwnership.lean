import Payknot.Hosts

/-! Whose an agent id is. The endpoints ask for some host's session only; where every
change of a registered agent comes from the host its row names, that host never changes,
and whoever signs in the agent's name uses a key of that host or of the environment. -/
namespace Payknot.AgentKeys
open GoText Interleaving Machine

variable {e : Environment} {a : String} {cfg after : Service} {label : ServiceLabel}

def Request.host : Request → Option String
  | .upsert claims _ | .revoke claims _ => claims.map AuthClaims.email
  | _ => none

/-- A statement that changes the row of a registered agent comes from the host the row
was created by; the revocation of a row that is not active changes nothing. -/
def FromOwner (cfg : Service) (label : ServiceLabel) : Prop :=
  ∀ index choice thread, label = .step index choice → choice.fault = none →
    cfg.threads[index]? = some thread →
    (∀ agentID key createdBy row, thread.Issues (.sql (.upsertKey agentID key createdBy)) →
      rowOf cfg.world.rows agentID = some row → row.createdBy = createdBy) ∧
    (∀ agentID row, thread.Issues (.sql (.revokeKey agentID)) →
      rowOf cfg.world.rows agentID = some row → row.active = true →
      thread.request.host = some row.createdBy)

def StepOf (host : String) (cfg : Service) (label : ServiceLabel) : Prop :=
  ∃ index choice thread, label = .step index choice ∧ cfg.threads[index]? = some thread ∧
    thread.request.host = some host

def SameRegistration (row current : KeyRow) : Prop :=
  current.publicKeyBase64 = row.publicKeyBase64 ∧ current.active = row.active ∧
    current.createdBy = row.createdBy

-- A row stays, stays its creator's, and is changed by its creator only.
theorem row_next (orderly : Orderly e cfg) (owned : FromOwner cfg label)
    (stepped : (machine e).next cfg label = some after) {row : KeyRow}
    (found : rowOf cfg.world.rows a = some row) :
    ∃ current, rowOf after.world.rows a = some current ∧ current.createdBy = row.createdBy ∧
      (SameRegistration row current ∨ StepOf row.createdBy cfg label) := by
  have unchanged (same : after.world.rows = cfg.world.rows) :
      ∃ current, rowOf after.world.rows a = some current ∧ current.createdBy = row.createdBy ∧
        (SameRegistration row current ∨ StepOf row.createdBy cfg label) :=
    ⟨row, by rw [same, found], rfl, .inl ⟨rfl, rfl, rfl⟩⟩
  rcases next_cases stepped with ⟨_, _, rfl⟩ | ⟨_, _, _, occurred, rfl⟩ |
    ⟨index, choice, thread, op, rest, reply, world, rfl, at_index, program, executed, rfl⟩
  · exact unchanged rfl
  · cases occurred
    exact unchanged rfl
  · have warrant := orderly.disciplined.issues (List.mem_of_getElem? at_index) ⟨rest, program⟩
    rcases exec_rows executed with same | ⟨agentID, key, createdBy, rfl, sound, same⟩ |
      ⟨agentID, rfl, sound, same⟩
    · exact unchanged same
    · by_cases of_agent : a = agentID
      · subst of_agent
        have owner := (owned index choice thread rfl sound at_index).1 a key createdBy row
          ⟨rest, program⟩ found
        refine ⟨row.overwrite key createdBy, ?_, owner.symm, .inr ⟨index, choice, thread, rfl, at_index, ?_⟩⟩
        · simp [same, rowOf_upsertRow, found]
        · obtain ⟨claims, body, bytes, asked, _, _, _, rfl, _⟩ := warrant.2
          rw [asked, owner]
          rfl
      · refine ⟨row, ?_, rfl, .inl ⟨rfl, rfl, rfl⟩⟩
        simp [same, rowOf_upsertRow, of_agent, found]
    · by_cases of_agent : a = agentID
      · subst of_agent
        refine ⟨{ row with active := false, revokedAt := some cfg.world.now }, ?_, rfl, ?_⟩
        · simp [same, rowOf_revokeRow, found]
        · cases active : row.active with
          | false => exact .inl ⟨rfl, active.symm, rfl⟩
          | true =>
              exact .inr ⟨index, choice, thread, rfl, at_index,
                (owned index choice thread rfl sound at_index).2 a row ⟨rest, program⟩ found active⟩
      · refine ⟨row, ?_, rfl, .inl ⟨rfl, rfl, rfl⟩⟩
        simp [same, rowOf_revokeRow, of_agent, found]

section Keys

/-- A request of this host has registered this key text for the agent. -/
def Registered (e : Environment) (cfg : Service) (agentID keyText host : String) : Prop :=
  ∃ registrar ∈ cfg.threads, registrar.request.Supplies e agentID keyText host ∧
    registrar.log.Saw (.sql (.upsertKey agentID keyText host)) (.ok ())

/-- The environment has this key for the agent, or some host has registered it. -/
def Known (e : Environment) (cfg : Service) (agentID : String) (key : Bytes) : Prop :=
  lookupKey (agentPublicKeysFromEnv e) agentID = some key ∨
    ∃ keyText host, Registered e cfg agentID keyText host ∧ e.base64Decode keyText = some key

/-- Every key in sight was registered, and whoever registered is its row's creator. -/
structure Accounted (e : Environment) (cfg : Service) : Prop where
  orderly : Orderly e cfg
  rows : ∀ row ∈ cfg.world.rows, Registered e cfg row.agentId row.publicKeyBase64 row.createdBy
  cached : ∀ keys, cfg.world.cache.keys = some keys →
    ∀ agentID key, lookupKey (some keys) agentID = some key → Known e cfg agentID key
  seen : ∀ thread ∈ cfg.threads, ∀ keys, Source e thread.log keys →
    ∀ agentID key, lookupKey keys agentID = some key → Known e cfg agentID key
  creator : ∀ agentID keyText host, Registered e cfg agentID keyText host →
    ∃ row, rowOf cfg.world.rows agentID = some row ∧ row.createdBy = host

theorem registered_next {agentID keyText host : String}
    (registered : Registered e cfg agentID keyText host)
    (stepped : (machine e).next cfg label = some after) : Registered e after agentID keyText host := by
  obtain ⟨registrar, member, supplies, saw⟩ := registered
  obtain ⟨index, found⟩ := List.mem_iff_getElem?.mp member
  obtain ⟨current, still, request, grown⟩ := thread_kept stepped found
  exact ⟨current, List.mem_of_getElem? still, by rwa [request], saw.mono grown⟩

theorem known_next {agentID : String} {key : Bytes} (known : Known e cfg agentID key)
    (stepped : (machine e).next cfg label = some after) : Known e after agentID key := by
  rcases known with outside | ⟨keyText, host, registered, decoded⟩
  · exact .inl outside
  · exact .inr ⟨keyText, host, registered_next registered stepped, decoded⟩

-- The map of a refresh has registered keys only.
theorem refreshed_known (held : Accounted e cfg) (choice : Choice) {agentID : String} {key : Bytes}
    (found : lookupKey (refreshed e (runSql choice .selectActiveKeys cfg.world).1) agentID = some key) :
    Known e cfg agentID key := by
  simp only [refreshed, runSql] at found
  split at found
  · exact .inl found
  · simp only [Except.map, keysInForce] at found
    split at found
    · exact .inl found
    · obtain ⟨⟨id, keyB64⟩, listed, usable⟩ := mem_collectKeys.mp (lookupKey_mem found)
      have whole : (id, keyB64) ∈ activeKeys cfg.world.rows := by
        unfold Choice.delivered at listed
        split at listed
        · exact listed
        · exact List.mem_of_mem_take listed
      obtain ⟨row, member, same⟩ := List.mem_map.mp whole
      cases same
      have inside := (List.mem_filter.mp member).1
      have registered := held.rows row inside
      obtain ⟨of_id, decoded⟩ := usableKey_id usable
      rw [held.orderly.tidy.trimmed row inside] at of_id
      subst of_id
      obtain ⟨_, _, ⟨_, body, _, _, _, _, text, _⟩, _⟩ := id registered
      refine .inr ⟨_, _, registered, ?_⟩
      rw [text, trimSpace_trimSpace] at decoded
      rw [text, decoded]

theorem mem_upsertRow {agentID key createdBy : String} {rows : List KeyRow} {row : KeyRow}
    (member : row ∈ upsertRow agentID key createdBy rows) :
    row ∈ rows ∨ (row.agentId = agentID ∧ row.publicKeyBase64 = key ∧ row.createdBy = createdBy) := by
  unfold upsertRow at member
  split at member
  · obtain ⟨old, among, rfl⟩ := List.mem_map.mp member
    split
    · next same => exact .inr ⟨same, rfl, rfl⟩
    · exact .inl among
  · rcases List.mem_append.mp member with old | new
    · exact .inl old
    · rw [List.mem_singleton] at new
      subst new
      exact .inr ⟨rfl, rfl, rfl⟩

theorem mem_revokeRow {agentID : String} {now : Time} {rows : List KeyRow} {row : KeyRow}
    (member : row ∈ revokeRow agentID now rows) :
    ∃ old ∈ rows, row.agentId = old.agentId ∧ row.publicKeyBase64 = old.publicKeyBase64 ∧
      row.createdBy = old.createdBy := by
  obtain ⟨old, among, rfl⟩ := List.mem_map.mp member
  refine ⟨old, among, ?_⟩
  split <;> exact ⟨rfl, rfl, rfl⟩

-- A registration that a step adds is that of the statement the step performs.
theorem registered_before {agentID keyText host : String} (registered : Registered e after agentID keyText host)
    (stepped : (machine e).next cfg label = some after) :
    Registered e cfg agentID keyText host ∨
      ∃ row, rowOf after.world.rows agentID = some row ∧ row.createdBy = host := by
  obtain ⟨registrar, member, supplies, saw⟩ := registered
  obtain ⟨index, found⟩ := List.mem_iff_getElem?.mp member
  rcases saw_after stepped found saw with ⟨thread, old, request, saw⟩ |
    ⟨choice, thread, rest, _, at_index, program, executed, _⟩
  · exact .inl ⟨thread, List.mem_of_getElem? old, by rwa [request], saw⟩
  · refine .inr ?_
    have ran := Option.some.inj executed
    simp only [runSql] at ran
    split at ran
    · cases congrArg Prod.fst ran
    · have written : _ = after.world := congrArg Prod.snd ran
      rw [← written]
      refine ⟨_, by rw [rowOf_upsertRow, if_pos rfl], ?_⟩
      cases rowOf cfg.world.rows agentID with
      | none => rfl
      | some row => rfl

theorem accounted_next (held : Accounted e cfg) (owned : FromOwner cfg label)
    (stepped : (machine e).next cfg label = some after) : Accounted e after := by
  constructor
  · exact held.orderly.next stepped
  · -- Rows: an old one keeps its registration, a new or overwritten one has just been registered.
    intro row member
    rcases next_cases stepped with ⟨_, _, same⟩ | ⟨_, _, _, occurred, same⟩ |
      ⟨index, choice, thread, op, rest, reply, world, _, at_index, program, executed, same⟩
    · rw [same] at member
      exact registered_next (held.rows row member) stepped
    · cases occurred
      rw [same] at member
      exact registered_next (held.rows row member) stepped
    · have warrant := held.orderly.disciplined.issues (List.mem_of_getElem? at_index) ⟨rest, program⟩
      rw [same] at member
      rcases exec_rows executed with kept | ⟨agentID, key, createdBy, rfl, sound, written⟩ |
        ⟨agentID, rfl, _, written⟩
      · rw [kept] at member
        exact registered_next (held.rows row member) stepped
      · rw [written] at member
        rcases mem_upsertRow member with old | ⟨rfl, rfl, rfl⟩
        · exact registered_next (held.rows row old) stepped
        · have inside := (List.getElem?_eq_some_iff.mp at_index).1
          have ran := congrArg Prod.fst (Option.some.inj executed)
          simp only [runSql, sound] at ran
          refine ⟨thread.resumed _ reply rest, ?_, warrant.2, ?_⟩
          · rw [same]
            exact List.mem_of_getElem? (List.getElem?_set_self inside)
          · rw [← ran]
            exact List.mem_cons_self
      · rw [written] at member
        obtain ⟨old, among, of_id, text, creator⟩ := mem_revokeRow member
        rw [of_id, text, creator]
        exact registered_next (held.rows old among) stepped
  · intro keys stored agentID key found
    rcases next_cases stepped with ⟨_, _, same⟩ | ⟨_, _, _, occurred, same⟩ |
      ⟨index, choice, thread, op, rest, reply, world, _, at_index, program, executed, same⟩
    · rw [same] at stored
      exact known_next (held.cached keys stored agentID key found) stepped
    · cases occurred
      rw [same] at stored
      exact known_next (held.cached keys stored agentID key found) stepped
    · have warrant := held.orderly.disciplined.issues (List.mem_of_getElem? at_index) ⟨rest, program⟩
      rw [same] at stored
      rcases exec_cache executed with kept | ⟨written, expiresAt, rfl, kept⟩ | ⟨rfl, kept⟩
      · rw [kept] at stored
        exact known_next (held.cached keys stored agentID key found) stepped
      · obtain ⟨answer, earlier, log, from_read⟩ := warrant.2
        rw [kept] at stored
        change written = some keys at stored
        rw [← stored] at found
        have source : Source e thread.log written := by
          rw [from_read, log]
          exact .read List.mem_cons_self
        exact known_next
          (held.seen thread (List.mem_of_getElem? at_index) written source agentID key found) stepped
      · rw [kept] at stored
        cases stored
  · intro current member keys source agentID key found
    obtain ⟨index, at_index⟩ := List.mem_iff_getElem?.mp member
    have earlier {thread : ServiceThread} (old : cfg.threads[index]? = some thread)
        (source : Source e thread.log keys) : Known e after agentID key :=
      known_next (held.seen thread (List.mem_of_getElem? old) keys source agentID key found) stepped
    cases source with
    | @cached stored expiresAt saw =>
        rcases saw_after stepped at_index saw with ⟨thread, old, _, saw⟩ |
          ⟨choice, thread, rest, _, _, _, executed, _⟩
        · exact earlier old (.cached saw)
        · have read := congrArg Prod.fst (Option.some.inj executed)
          exact known_next
            (held.cached stored (congrArg AgentKeyCache.keys read) agentID key found) stepped
    | @read reply saw =>
        rcases saw_after stepped at_index saw with ⟨thread, old, _, saw⟩ |
          ⟨choice, thread, rest, _, _, _, executed, _⟩
        · exact earlier old (.read saw)
        · have read : _ = reply := congrArg Prod.fst (Option.some.inj executed)
          rw [← read] at found
          exact known_next (refreshed_known held choice found) stepped
  · intro agentID keyText host registered
    rcases registered_before registered stepped with old | new
    · obtain ⟨row, found, creator⟩ := held.creator agentID keyText host old
      obtain ⟨current, still, same, _⟩ := row_next held.orderly owned stepped found
      exact ⟨current, still, same.trans creator⟩
    · exact new

end Keys

/-- A service that has served nobody, with an empty table and an empty cache. -/
structure Unused (cfg : Service) : Prop where
  threads : cfg.threads = []
  rows : cfg.world.rows = []
  cache : cfg.world.cache.keys = none

theorem Unused.accounted (unused : Unused cfg) : Accounted e cfg := by
  have nobody {agentID keyText host : String} : ¬ Registered e cfg agentID keyText host := by
    rintro ⟨_, member, _⟩
    rw [unused.threads] at member
    cases member
  refine ⟨Fresh.orderly ⟨unused.threads, ?_⟩, ?_, ?_, ?_, fun _ _ _ registered => absurd registered nobody⟩
  · rw [unused.rows]
    exact ⟨by simp, by simp⟩
  · intro row member
    rw [unused.rows] at member
    cases member
  · intro keys stored
    rw [unused.cache] at stored
    cases stored
  · intro thread member
    rw [unused.threads] at member
    cases member

theorem row_kept {last : Service} {row : KeyRow} (orderly : Orderly e cfg)
    (run : (machine e).Reaches FromOwner cfg last) (found : rowOf cfg.world.rows a = some row) :
    ∃ current, rowOf last.world.rows a = some current ∧ current.createdBy = row.createdBy := by
  have held := run.invariant
    (fun cfg => Orderly e cfg ∧
      ∃ current, rowOf cfg.world.rows a = some current ∧ current.createdBy = row.createdBy)
    ⟨orderly, row, found, rfl⟩ ?_
  · exact held.2
  · rintro cfg label after ⟨orderly, current, found, same⟩ owned stepped
    obtain ⟨later, still, kept, _⟩ := row_next orderly owned stepped found
    exact ⟨orderly.next stepped, later, still, kept.trans same⟩

/-- Any interleaving of requests of any hosts whose statements come from the rows'
creators: an agent id stays with the host it was registered by, no step of another host
changes its key, its active flag or its creator, and a signature in its name is accepted
only for a key that this host has registered or the environment holds. -/
theorem agent_stays_with_its_host {init mid last : Service} {row : KeyRow} (unused : Unused init)
    (before : (machine e).Reaches FromOwner init mid) (registered : rowOf mid.world.rows a = some row)
    (run : (machine e).Reaches FromOwner mid last) :
    (∃ current, rowOf last.world.rows a = some current ∧ current.createdBy = row.createdBy) ∧
    (∀ label after current, FromOwner last label → (machine e).next last label = some after →
      ¬ StepOf row.createdBy last label → rowOf last.world.rows a = some current →
      ∃ later, rowOf after.world.rows a = some later ∧ SameRegistration current later) ∧
    (∀ thread ∈ last.threads, ∀ agentID r claims, thread.request = .verify agentID r →
      trimSpace agentID = a → thread.program = .ret (.verified (some claims)) →
      ∃ key ts now, signatureHolds e.toCrypto r key ts now = true ∧
        (lookupKey (agentPublicKeysFromEnv e) a = some key ∨
          ∃ keyText, Registered e last a keyText row.createdBy ∧ e.base64Decode keyText = some key)) := by
  have held := (before.trans run).invariant (Accounted e) unused.accounted
    fun _ _ _ held owned stepped => accounted_next held owned stepped
  have orderly := orderly_reached (Fresh.orderly ⟨unused.threads, by rw [unused.rows]; exact ⟨by simp, by simp⟩⟩)
    before
  obtain ⟨current, still, kept⟩ := row_kept orderly run registered
  refine ⟨⟨current, still, kept⟩, ?_, ?_⟩
  · intro label after found owned stepped elsewhere same
    rw [still, Option.some.injEq] at same
    subst same
    obtain ⟨later, at_agent, _, unchanged | own⟩ := row_next held.orderly owned stepped still
    · exact ⟨later, at_agent, unchanged⟩
    · rw [kept] at own
      exact absurd own elsewhere
  · intro thread member agentID r claims asked named answered
    obtain ⟨id, r', keys, key, ts, now, same, source, found, holds⟩ :=
      (held.orderly.disciplined.ends member answered).2
    rw [asked] at same
    cases same
    rw [named] at found
    refine ⟨key, ts, now, holds, ?_⟩
    rcases held.seen thread member keys source a key found with outside |
      ⟨keyText, host, of_host, decoded⟩
    · exact .inl outside
    · obtain ⟨at_last, same_row, creator⟩ := held.creator a keyText host of_host
      rw [still, Option.some.injEq] at same_row
      subst same_row
      rw [← kept, creator]
      exact .inr ⟨keyText, of_host, decoded⟩

section Meetup
open Hosts

def fromOwner (cfg : Service) (label : ServiceLabel) : Bool :=
  match label with
  | .step index _ =>
      match cfg.threads[index]? with
      | some ⟨_, _, .call (.sql (.upsertKey agentID _ createdBy)) _⟩ =>
          (rowOf cfg.world.rows agentID).all (·.createdBy = createdBy)
      | some ⟨request, _, .call (.sql (.revokeKey agentID)) _⟩ =>
          (rowOf cfg.world.rows agentID).all fun row => request.host = some row.createdBy
      | _ => true
  | _ => true

theorem fromOwner_of (owned : fromOwner cfg label = true) : FromOwner cfg label := by
  rintro index choice ⟨request, log, program⟩ rfl _ at_index
  simp only [fromOwner, at_index] at owned
  constructor
  · rintro agentID key createdBy row ⟨rest, rfl⟩ found
    simpa [found] using owned
  · rintro agentID row ⟨rest, rfl⟩ found _
    simpa [found] using owned

def createdBy (cfg : Service) (a host : String) : Bool :=
  (rowOf cfg.world.rows a).any (·.createdBy = host)

theorem createdBy_of {host : String} (created : createdBy cfg a host = true) :
    ∃ row, rowOf cfg.world.rows a = some row ∧ row.createdBy = host := by
  obtain ⟨row, found, same⟩ := (Option.any_eq_true _ _).mp created
  exact ⟨row, found, by simpa using same⟩

/-- The request at `index`, signed with bob's key, has been accepted in this agent's name. -/
def acceptedFor (cfg : Service) (index : Nat) (a : String) : Bool :=
  match cfg.threads[index]? with
  | some ⟨.verify agentID ⟨"GET", "/api/events", "1754000000", signature, some []⟩, _,
      .ret (.verified (some claims))⟩ =>
      agentID = a && (signature = bobSignature && claims.email = "agent:" ++ a)
  | _ => false

theorem acceptedFor_of {index : Nat} (accepted : acceptedFor cfg index a = true) :
    ∃ thread ∈ cfg.threads, ∃ claims, thread.request = signedByBob a ∧
      thread.program = .ret (.verified (some claims)) ∧ claims.email = "agent:" ++ a := by
  unfold acceptedFor at accepted
  split at accepted
  · next agentID signature log claims found =>
    simp only [Bool.and_eq_true, decide_eq_true_eq] at accepted
    obtain ⟨rfl, rfl, named⟩ := accepted
    exact ⟨_, List.mem_of_getElem? found, claims, rfl, rfl, named⟩
  · cases accepted

/-- alice and bob register an agent each, and bob's signs a request, by the general result. -/
theorem agent_stays_with_its_host_meetup : ∃ (last : Service) (thread : ServiceThread) (key : Bytes)
    (keyText : String), thread ∈ last.threads ∧ thread.request = signedByBob "agent-b" ∧
      Registered (environment "") last "agent-b" keyText bob.email ∧
      (environment "").base64Decode keyText = some key := by
  obtain ⟨mid, before, done⟩ := run_meets (machine (environment "")) fromOwner
    (.arrive (register alice "agent-a" aliceKey) :: steps 0 2 ++
      .arrive (register bob "agent-b" bobKey) :: steps 1 2) opening
    (fun mid => createdBy mid "agent-b" bob.email &&
      ((machine (environment "")).run fromOwner (.arrive (signedByBob "agent-b") :: steps 2 6) mid).any
        fun last => acceptedFor last 2 "agent-b") (by decide +kernel)
  simp only [Bool.and_eq_true] at done
  obtain ⟨created, done⟩ := done
  obtain ⟨last, run, accepted⟩ := run_meets _ _ _ mid _ done
  obtain ⟨row, found, of_bob⟩ := createdBy_of created
  obtain ⟨thread, member, claims, asked, answered, _⟩ := acceptedFor_of accepted
  have unused : Unused opening := ⟨rfl, rfl, rfl⟩
  have result := agent_stays_with_its_host unused (before.mono fun _ _ => fromOwner_of) found
    (run.mono fun _ _ => fromOwner_of)
  obtain ⟨key, _, _, _, outside | ⟨keyText, registered, decoded⟩⟩ :=
    result.2.2 thread member _ _ claims asked (by decide +kernel) answered
  · have empty : agentPublicKeysFromEnv (environment "") = none := by decide +kernel
    rw [empty] at outside
    cases outside
  · rw [of_bob] at registered
    exact ⟨last, thread, key, keyText, member, asked, registered, decoded⟩

/-- bob registers alice's agent once more, under his own key: the row is his, and what he
signs is accepted in the agent's name. -/
theorem agent_taken_over : ∃ (mid last : Service) (row taken : KeyRow) (thread : ServiceThread)
    (claims : AgentAuthClaims),
    (machine (environment "")).Reaches anyStep opening mid ∧
    rowOf mid.world.rows "agent-a" = some row ∧ row.createdBy = alice.email ∧
    (machine (environment "")).Reaches anyStep mid last ∧
    rowOf last.world.rows "agent-a" = some taken ∧ taken.createdBy = bob.email ∧
    thread ∈ last.threads ∧ thread.request = signedByBob "agent-a" ∧
    thread.program = .ret (.verified (some claims)) ∧ claims.email = "agent:agent-a" := by
  obtain ⟨mid, before, done⟩ := run_meets (machine (environment "")) (fun _ _ => true)
    (.arrive (register alice "agent-a" aliceKey) :: steps 0 2) opening
    (fun mid => createdBy mid "agent-a" alice.email &&
      ((machine (environment "")).run (fun _ _ => true) (.arrive (register bob "agent-a" bobKey) ::
        steps 1 2 ++ .arrive (signedByBob "agent-a") :: steps 2 6) mid).any
        fun last => createdBy last "agent-a" bob.email && acceptedFor last 2 "agent-a") (by decide +kernel)
  simp only [Bool.and_eq_true] at done
  obtain ⟨created, done⟩ := done
  obtain ⟨last, run, done⟩ := run_meets _ _ _ mid _ done
  simp only [Bool.and_eq_true] at done
  obtain ⟨retaken, accepted⟩ := done
  obtain ⟨row, found, of_alice⟩ := createdBy_of created
  obtain ⟨taken, at_last, of_bob⟩ := createdBy_of retaken
  obtain ⟨thread, member, claims, asked, answered, named⟩ := acceptedFor_of accepted
  exact ⟨mid, last, row, taken, thread, claims, before.any, found, of_alice, run.any, at_last, of_bob,
    member, asked, answered, named⟩

end Meetup

end Payknot.AgentKeys
