import Payknot.RuntimeHistory
import Payknot.Agents
import Payknot.Serial
import Mathlib.Data.List.Nodup

/-! What the signature of one settlement request is good for. It covers method, path,
timestamp and body; whether a repetition settles again is left to the window of the
timestamp and to the idempotency key, which is not signed. -/
namespace Payknot.AgentRuntime
open GoText Interleaving Machine

variable {e : Environment} {cfg after : Service} {label : ServiceLabel} {R : SignedRequest}

/-- The request repeats a signed request, with this idempotency key. -/
def Request.Replays (request : Request) (R : SignedRequest) (key : String) : Prop :=
  ∃ r, request = .createCheckout r ∧ r.signed = R ∧ trimSpace r.idempotencyKey = key

/-- The request repeats a signed request and has confirmed this row. -/
structure Settles (cfg : Service) (thread : ServiceThread) (R : SignedRequest) (agentPubkey key : String)
    (row : IntentRow) : Prop where
  replays : thread.request.Replays R key
  member : row ∈ cfg.world.intents
  confirmed : row.status = .confirmed
  agent : row.agentPubkey = agentPubkey
  confirms : ∃ txSignature, thread.log.Saw (.sql (.confirmIntent row.id txSignature)) (.ok ())

/-- The server read its clock at most 300 seconds after the timestamp, or 60 before it. -/
def InWindow (thread : ServiceThread) (R : SignedRequest) : Prop :=
  ∃ now ts, thread.log.Saw .now now ∧ parseInt (trimSpace R.timestamp) = .ok ts ∧
    unix now - 300 ≤ ts.toInt ∧ ts.toInt ≤ unix now + 60

/-- The row as its INSERT left it: only the status and the transaction ever change. -/
def IntentRow.inserted (row : IntentRow) : IntentRow := { row with status := .queued, txSignature := none }

section Same
variable {row old : IntentRow} (same : row.inserted = old.inserted)
include same

theorem IntentRow.same_id : row.id = old.id :=
  (congrArg IntentRow.id same : row.inserted.id = old.inserted.id)

theorem IntentRow.same_agent : row.agentPubkey = old.agentPubkey :=
  (congrArg IntentRow.agentPubkey same : row.inserted.agentPubkey = old.inserted.agentPubkey)

theorem IntentRow.same_key : row.idempotencyKey = old.idempotencyKey :=
  (congrArg IntentRow.idempotencyKey same : row.inserted.idempotencyKey = old.inserted.idempotencyKey)

theorem IntentRow.same_created : row.createdAt = old.createdAt :=
  (congrArg IntentRow.createdAt same : row.inserted.createdAt = old.inserted.createdAt)

end Same

def IntentRow.Stores (row : IntentRow) (intent : NewIntent) : Prop := row.inserted = intent.row row.createdAt

namespace IntentRow.Stores
variable {row old : IntentRow} {intent : NewIntent}

theorem id (stores : row.Stores intent) : intent.id = row.id := (congrArg IntentRow.id stores).symm

theorem agentPubkey (stores : row.Stores intent) : intent.agentPubkey = row.agentPubkey :=
  (congrArg IntentRow.agentPubkey stores).symm

theorem idempotencyKey (stores : row.Stores intent) : intent.idempotencyKey = row.idempotencyKey :=
  (congrArg IntentRow.idempotencyKey stores).symm

theorem restated (stores : old.Stores intent) (same : row.inserted = old.inserted) : row.Stores intent := by
  rw [Stores, same, IntentRow.same_created same]
  exact stores

end IntentRow.Stores

def Recorded (log : Log Reply) (row : IntentRow) : Prop :=
  ∃ intent, row.Stores intent ∧ log.Saw (.sql (.insertIntent intent)) (.ok ())

theorem Recorded.mono {log later : Log Reply} {row : IntentRow} (recorded : Recorded log row)
    (grown : log <:+ later) : Recorded later row := by
  obtain ⟨intent, stores, saw⟩ := recorded
  exact ⟨intent, stores, saw.mono grown⟩

theorem Recorded.restated {log : Log Reply} {row old : IntentRow} (recorded : Recorded log old)
    (same : row.inserted = old.inserted) : Recorded log row := by
  obtain ⟨intent, stores, saw⟩ := recorded
  exact ⟨intent, stores.restated same, saw⟩

structure Keyed (intents : List IntentRow) : Prop where
  ids : (intents.map IntentRow.id).Nodup
  keys : ∀ first ∈ intents, ∀ second ∈ intents, first.agentPubkey = second.agentPubkey →
    first.idempotencyKey = second.idempotencyKey → first.idempotencyKey ≠ none → first = second

section Rows
variable {op : Op} {reply : Reply op} {choice : Choice} {w w' : World}

def SameIntent (update : IntentRow → IntentRow) : Prop := ∀ row, (update row).inserted = row.inserted

theorem exec_intents (executed : exec choice op w = some (reply, w')) :
    (∃ intent, (⟨op, reply⟩ : Entry Reply) = ⟨.sql (.insertIntent intent), .ok ()⟩ ∧
      (∀ old ∈ w.intents, old.id ≠ intent.id) ∧ (∀ old ∈ w.intents, sameKey intent old = false) ∧
      w'.intents = w.intents ++ [intent.row w.now]) ∨
    ∃ update, SameIntent update ∧ w'.intents = w.intents.map update := by
  have unchanged : SameIntent fun row => row := fun _ => rfl
  cases effect : exec_effect executed with
  | recorded absent free => exact .inl ⟨_, rfl, absent, free, rfl⟩
  | confirmed id txSignature =>
      refine .inr ⟨_, fun row => ?_, rfl⟩
      split <;> rfl
  | failed id =>
      refine .inr ⟨_, fun row => ?_, rfl⟩
      split <;> rfl
  | unchanged | drawn | nonce | marked | session => exact .inr ⟨_, unchanged, by simp⟩

theorem exec_minted (executed : exec choice op w = some (reply, w')) : w.minted ⊆ w'.minted := by
  cases exec_effect executed with
  | drawn fresh => exact List.subset_cons_self _ _
  | unchanged | nonce | marked | session | recorded | confirmed | failed => exact List.Subset.refl _

theorem exec_newUUID {uuid : String} (executed : exec choice .newUUID w = some (uuid, w')) :
    uuid ∉ w.minted ∧ uuid ∈ w'.minted := by
  cases exec_effect executed with
  | drawn fresh => exact ⟨fresh, List.mem_cons_self⟩
  | unchanged draws_none => exact absurd rfl draws_none

theorem Keyed.exec (keyed : Keyed w.intents) (executed : exec choice op w = some (reply, w')) :
    Keyed w'.intents := by
  rcases exec_intents executed with ⟨intent, _, absent, free, same⟩ | ⟨update, updates, same⟩
  · rw [same]
    constructor
    · rw [List.map_append, List.nodup_append]
      refine ⟨keyed.ids, by simp, ?_⟩
      intro first among second only equal
      obtain ⟨old, member, rfl⟩ := List.mem_map.mp among
      simp only [List.map_cons, List.map_nil, List.mem_singleton] at only
      exact absent old member (equal.trans only)
    · -- The index refuses a key that a row of the agent has.
      have clash {old : IntentRow} (member : old ∈ w.intents)
          (agent : old.agentPubkey = intent.agentPubkey) (key : old.idempotencyKey = intent.idempotencyKey)
          (some_key : old.idempotencyKey ≠ none) : False := by
        have free := free old member
        rw [key] at some_key
        simp [sameKey, agent, key, Option.isSome_iff_ne_none.mpr some_key] at free
      intro first at_first second at_second agent key some_key
      rcases List.mem_append.mp at_first with old | fresh
      · rcases List.mem_append.mp at_second with old' | fresh'
        · exact keyed.keys first old second old' agent key some_key
        · rw [List.mem_singleton] at fresh'
          subst fresh'
          exact (clash old agent key some_key).elim
      · rw [List.mem_singleton] at fresh
        subst fresh
        rcases List.mem_append.mp at_second with old' | fresh'
        · exact (clash old' agent.symm key.symm fun none => some_key (key.trans none)).elim
        · exact (List.mem_singleton.mp fresh').symm
  · rw [same]
    constructor
    · have ids : (w.intents.map update).map IntentRow.id = w.intents.map IntentRow.id := by
        rw [List.map_map]
        exact List.map_congr_left fun row _ => IntentRow.same_id (updates row)
      rw [ids]
      exact keyed.ids
    · intro first at_first second at_second agent key some_key
      obtain ⟨old, member, rfl⟩ := List.mem_map.mp at_first
      obtain ⟨old', member', rfl⟩ := List.mem_map.mp at_second
      rw [IntentRow.same_agent (updates old), IntentRow.same_agent (updates old')] at agent
      rw [IntentRow.same_key (updates old)] at some_key
      rw [IntentRow.same_key (updates old), IntentRow.same_key (updates old')] at key
      rw [keyed.keys old member old' member' agent key some_key]

end Rows
section Invariant

/-- Every row is recorded by the one request that drew its id, with the key that request
came with. -/
structure Settled (e : Environment) (cfg : Service) : Prop where
  disciplined : Disciplined (Issues e) (fun _ => Ends) cfg
  justified : Justified (Issues e) cfg
  keyed : Keyed cfg.world.intents
  drawn : ∀ row ∈ cfg.world.intents, row.id ∈ cfg.world.minted
  minted : ∀ thread ∈ cfg.threads, ∀ uuid, thread.log.Saw .newUUID uuid → uuid ∈ cfg.world.minted
  apart : ∀ (i j : Nat) (first second : ServiceThread) (uuid : String), cfg.threads[i]? = some first →
    cfg.threads[j]? = some second → first.log.Saw .newUUID uuid → second.log.Saw .newUUID uuid → i = j
  recorded : ∀ thread ∈ cfg.threads, ∀ row ∈ cfg.world.intents, thread.log.Saw .newUUID row.id →
    Recorded thread.log row

theorem next_minted (stepped : (machine e).next cfg label = some after) :
    cfg.world.minted ⊆ after.world.minted := by
  rcases next_cases stepped with ⟨_, _, rfl⟩ | ⟨_, _, _, occurred, rfl⟩ |
    ⟨index, choice, thread, op, rest, reply, world, _, at_index, program, executed, rfl⟩
  · exact List.Subset.refl _
  · cases occurred
    exact List.Subset.refl _
  · change cfg.world.minted ⊆ world.minted
    exact exec_minted executed

/-- Every row of a later state is an earlier row restated, or has just been recorded. -/
theorem row_before (stepped : (machine e).next cfg label = some after) {row : IntentRow}
    (member : row ∈ after.world.intents) :
    (∃ old ∈ cfg.world.intents, row.inserted = old.inserted) ∨
    ∃ index choice thread intent current, label = .step index choice ∧
      cfg.threads[index]? = some thread ∧ thread.Issues (.sql (.insertIntent intent)) ∧
      row = intent.row cfg.world.now ∧ after.threads[index]? = some current ∧
      current.log = ⟨.sql (.insertIntent intent), .ok ()⟩ :: thread.log := by
  rcases next_cases stepped with ⟨_, _, rfl⟩ | ⟨_, _, _, occurred, rfl⟩ |
    ⟨index, choice, thread, op, rest, reply, world, step, at_index, program, executed, rfl⟩
  · exact .inl ⟨row, member, rfl⟩
  · cases occurred
    exact .inl ⟨row, member, rfl⟩
  · change row ∈ world.intents at member
    rcases exec_intents executed with ⟨intent, entry, _, _, same⟩ | ⟨update, updates, same⟩
    · rw [same] at member
      rcases List.mem_append.mp member with old | fresh
      · exact .inl ⟨row, old, rfl⟩
      · rw [List.mem_singleton] at fresh
        cases entry
        have inside := (List.getElem?_eq_some_iff.mp at_index).1
        exact .inr ⟨index, choice, thread, intent, _, step, at_index, ⟨rest, program⟩, fresh,
          List.getElem?_set_self inside, rfl⟩
    · rw [same] at member
      obtain ⟨old, among, rfl⟩ := List.mem_map.mp member
      exact .inl ⟨old, among, updates old⟩

theorem Settled.keyed_next (settled : Settled e cfg) (stepped : (machine e).next cfg label = some after) :
    Keyed after.world.intents := by
  rcases next_cases stepped with ⟨_, _, rfl⟩ | ⟨_, _, _, occurred, rfl⟩ |
    ⟨index, choice, thread, op, rest, reply, world, _, at_index, program, executed, rfl⟩
  · exact settled.keyed
  · cases occurred
    exact settled.keyed
  · exact settled.keyed.exec executed

theorem Settled.apart_next (settled : Settled e cfg) (stepped : (machine e).next cfg label = some after)
    {i j : Nat} {first second : ServiceThread} {uuid : String} (at_i : after.threads[i]? = some first)
    (at_j : after.threads[j]? = some second) (drew : first.log.Saw .newUUID uuid)
    (drew' : second.log.Saw .newUUID uuid) : i = j := by
  rcases saw_after stepped at_i drew with ⟨thread, old, _, drew⟩ | ⟨_, thread, rest, step, _, _, executed, _⟩
  · rcases saw_after stepped at_j drew' with ⟨other, old', _, drew'⟩ | ⟨_, _, _, _, _, _, executed, _⟩
    · exact settled.apart i j thread other uuid old old' drew drew'
    · exact absurd (settled.minted thread (List.mem_of_getElem? old) uuid drew) (exec_newUUID executed).1
  · rcases saw_after stepped at_j drew' with ⟨other, old', _, drew'⟩ | ⟨_, _, _, step', _, _, _, _⟩
    · exact absurd (settled.minted other (List.mem_of_getElem? old') uuid drew') (exec_newUUID executed).1
    · rw [step] at step'
      cases step'
      rfl

theorem Settled.recorded_next (settled : Settled e cfg)
    (stepped : (machine e).next cfg label = some after) {current : ServiceThread}
    (member : current ∈ after.threads) {row : IntentRow} (present : row ∈ after.world.intents)
    (drew : current.log.Saw .newUUID row.id) : Recorded current.log row := by
  obtain ⟨index, at_index⟩ := List.mem_iff_getElem?.mp member
  rcases row_before stepped present with ⟨old, among, same⟩ |
    ⟨moved, choice, thread, intent, later, step, at_moved, suspended, rfl, at_later, log⟩
  · rw [IntentRow.same_id same] at drew
    rcases thread_after stepped at_index with still | ⟨request, _, rfl, _⟩ |
      ⟨choice, thread, op, rest, reply, _, before, program, executed, rfl⟩
    · exact (settled.recorded current (List.mem_of_getElem? still) old among drew).restated same
    · cases drew
    · have inside := List.mem_of_getElem? before
      rcases List.mem_cons.mp drew with here | earlier
      · cases here
        exact absurd (settled.drawn old among) (exec_newUUID executed).1
      · exact ((settled.recorded thread inside old among earlier).restated same).mono (List.suffix_cons _ _)
  · -- The row is new, so its id was drawn by the request that has just recorded it.
    have own := (settled.disciplined.issues (List.mem_of_getElem? at_moved) suspended).2.1
    have own_later : later.log.Saw .newUUID intent.id := by
      rw [log]
      exact List.mem_cons_of_mem _ own
    have same := settled.apart_next stepped at_index at_later drew own_later
    rw [same, at_later, Option.some.injEq] at at_index
    refine ⟨intent, rfl, ?_⟩
    rw [← at_index, log]
    exact List.mem_cons_self

theorem settled_next (settled : Settled e cfg) (stepped : (machine e).next cfg label = some after) :
    Settled e after := by
  have grown := next_minted stepped
  constructor
  · exact disciplined_next along_handler settled.disciplined stepped
  · exact justified_next settled.disciplined settled.justified stepped
  · exact settled.keyed_next stepped
  · intro row member
    rcases row_before stepped member with ⟨old, among, same⟩ |
      ⟨_, _, thread, intent, _, _, at_index, suspended, rfl, _, _⟩
    · rw [IntentRow.same_id same]
      exact grown (settled.drawn old among)
    · have present := List.mem_of_getElem? at_index
      exact grown (settled.minted thread present _ (settled.disciplined.issues present suspended).2.1)
  · intro current member uuid drew
    obtain ⟨index, at_index⟩ := List.mem_iff_getElem?.mp member
    rcases saw_after stepped at_index drew with ⟨thread, old, _, drew⟩ |
      ⟨_, _, _, _, _, _, executed, _⟩
    · exact grown (settled.minted thread (List.mem_of_getElem? old) uuid drew)
    · exact (exec_newUUID executed).2
  · exact fun i j first second uuid => settled.apart_next stepped
  · exact fun current member row present => settled.recorded_next stepped member present

end Invariant

/-- A service that has served nobody; the indexes hold, and the ids in use were drawn. -/
structure Unserved (cfg : Service) : Prop where
  threads : cfg.threads = []
  keyed : Keyed cfg.world.intents
  drawn : ∀ row ∈ cfg.world.intents, row.id ∈ cfg.world.minted

theorem Unserved.settled (unserved : Unserved cfg) : Settled e cfg := by
  have nobody : ∀ thread, thread ∉ cfg.threads := by simp [unserved.threads]
  constructor
  · exact fun thread member => absurd member (nobody thread)
  · exact fun thread member => absurd member (nobody thread)
  · exact unserved.keyed
  · exact unserved.drawn
  · exact fun thread member => absurd member (nobody thread)
  · exact fun i j thread _ _ at_i => absurd (List.mem_of_getElem? at_i) (nobody thread)
  · exact fun thread member => absurd member (nobody thread)

/-- A replay settles a row of its own, under the key it came with, inside the window. -/
theorem Settled.settles (settled : Settled e cfg) {thread : ServiceThread} {agentPubkey key : String}
    {row : IntentRow} (present : thread ∈ cfg.threads)
    (settles : Settles cfg thread R agentPubkey key row) :
    InWindow thread R ∧ row.idempotencyKey = nullIfEmpty key := by
  obtain ⟨txSignature, confirms⟩ := settles.confirms
  obtain ⟨earlier, within, intent, reply, of_id, inserts⟩ := settled.justified.saw present confirms
  obtain ⟨before, further, _, drew, _⟩ := settled.justified.saw present (inserts.mono within)
  have drew_row : thread.log.Saw .newUUID row.id := of_id ▸ drew.mono further
  obtain ⟨stored, columns, stores⟩ := settled.recorded thread present row settles.member drew_row
  obtain ⟨older, inside, _, _, r, request, authorised, with_key⟩ := settled.justified.saw present stores
  obtain ⟨r', request', rfl, rfl⟩ := settles.replays
  rw [request] at request'
  cases request'
  obtain ⟨pub, ts, now, _, read, parsed, holds⟩ := authorised
  obtain ⟨lower, upper⟩ := signatureHolds_window holds
  exact ⟨⟨now, ts, read.mono inside, parsed, lower, upper⟩, columns.idempotencyKey ▸ with_key⟩

/-- Any interleaving of any requests: replays of one signed request that settle do so inside
its window, and those with one idempotency key settle one row. -/
theorem replays_settle_once {init last : Service} {first second : ServiceThread}
    {agentPubkey key : String} {row row' : IntentRow} (unserved : Unserved init)
    (run : (machine e).Reaches anyStep init last) (present : first ∈ last.threads)
    (present' : second ∈ last.threads) (settles : Settles last first R agentPubkey key row)
    (settles' : Settles last second R agentPubkey key row') :
    InWindow first R ∧ (key ≠ "" → row = row') := by
  have settled := run.invariant (Settled e) unserved.settled fun _ _ _ held _ stepped => settled_next held stepped
  obtain ⟨window, of_key⟩ := settled.settles present settles
  obtain ⟨_, of_key'⟩ := settled.settles present' settles'
  refine ⟨window, fun some_key => ?_⟩
  obtain ⟨r, _, _, trimmed⟩ := settles.replays
  have indexed : nullIfEmpty key = some key := by
    rw [nullIfEmpty, ← trimmed, trimSpace_trimSpace, trimmed, if_neg some_key]
  apply settled.keyed.keys row settles.member row' settles'.member
  · rw [settles.agent, settles'.agent]
  · rw [of_key, of_key']
  · rw [of_key, indexed]
    exact Option.some_ne_none key

section Session
variable {sound : Choice → Prop} {w : World} {r : CheckoutRequest} {agent : AgentClaims} {log : Log Reply}

/-- A request with a live session's token and a signature that holds now. -/
structure Acceptable (e : Environment) (w : World) (r : CheckoutRequest) (agent : AgentClaims) : Prop where
  some_token : bearerToken r.authorization ≠ ""
  no_pat : hasPrefix (bearerToken r.authorization) "pkt_pat_" = false
  claims : signedClaims e (bearerToken r.authorization) = some agent
  named : ¬ (agent.agentPubkey = "" ∨ agent.jti = "")
  unexpired : unix w.now < agent.expiresAt
  live : runSql (.agentSessionLive agent.jti agent.agentPubkey) w = .ok (true, w)
  signed : ∃ pub ts, e.base58Decode agent.agentPubkey = some pub ∧ pub.length = 32 ∧
    trimSpace r.signed.timestamp ≠ "" ∧ trimSpace r.signed.signature ≠ "" ∧
    parseInt (trimSpace r.signed.timestamp) = .ok ts ∧
    signatureHolds e.toCrypto r.signed pub ts (unix w.now) = true

theorem Acceptable.parses (acceptable : Acceptable e w r agent) (allowed : sound ⟨none, none⟩) :
    Traces ((machine e).performing sound) (parseAndVerifyAgentJWT e (bearerToken r.authorization)) w log
      (some agent) w (⟨.now, w.now⟩ :: log) := by
  rw [parseAndVerifyAgentJWT, acceptable.claims]
  simp only [if_neg acceptable.named]
  have unexpired := acceptable.unexpired
  refine .perform_bind ⟨⟨none, none⟩, allowed, rfl⟩ ?_
  rw [if_neg (by omega)]
  exact .ret _ _ _

/-- What a request has seen once its session and its signature are accepted. -/
def sessionLog (w : World) (agent : AgentClaims) : Log Reply :=
  [⟨.now, w.now⟩, ⟨.sql (.touchAgentSession agent.jti), .ok ()⟩,
    ⟨.sql (.agentSessionLive agent.jti agent.agentPubkey), .ok true⟩, ⟨.now, w.now⟩]

theorem Acceptable.accepted (acceptable : Acceptable e w r agent) (allowed : sound ⟨none, none⟩) :
    Traces ((machine e).performing sound) (signedAgentSessionClaimsFromRequest e r) w [] (some agent) w
      (sessionLog w agent) := by
  have session : Traces ((machine e).performing sound)
      (jwtBackedAgentClaimsFromRequest e (bearerToken r.authorization)) w [] (some agent) w
      (sessionLog w agent).tail := by
    refine (acceptable.parses allowed).bind ?_
    have live : exec ⟨none, none⟩ (.sql (.agentSessionLive agent.jti agent.agentPubkey)) w =
        some (.ok true, w) := by simp only [exec, acceptable.live]
    refine .perform_bind ⟨⟨none, none⟩, allowed, live⟩ ?_
    exact .perform_bind ⟨⟨none, none⟩, allowed, rfl⟩ (.ret _ _ _)
  obtain ⟨pub, ts, decoded, size, some_ts, some_sig, parsed, holds⟩ := acceptable.signed
  have checks : Traces ((machine e).performing sound)
      (verifyEd25519RequestSignature e.toCrypto timeNow r.signed pub) w (sessionLog w agent).tail true w
      (sessionLog w agent) := by
    unfold verifyEd25519RequestSignature
    simp only [some_ts, some_sig, or_self, if_false, parsed]
    refine .perform_bind ⟨⟨none, none⟩, allowed, rfl⟩ ?_
    rw [holds]
    exact .ret _ _ _
  unfold signedAgentSessionClaimsFromRequest
  simp only [acceptable.some_token, acceptable.no_pat, Bool.false_eq_true, or_self, if_false]
  refine session.bind ?_
  simp only [decoded, size, ne_eq, not_true, if_false]
  exact checks.bind (.ret _ _ _)

-- An acceptable request is served as the settlement alone would be.
theorem Acceptable.reaches (acceptable : Acceptable e cfg.world r agent) (resting : idle cfg = true)
    {choices : List Choice} {answer : Answer} {later : Log Reply}
    (settled : (agentCheckoutCreate e agent r).playLogged exec choices cfg.world
      (sessionLog cfg.world agent) = some (answer, w, later)) :
    (machine e).Reaches anyStep cfg ⟨w, cfg.threads ++ [⟨.createCheckout r, later, .ret answer⟩]⟩ := by
  have accepted : Traces ((machine e).performing fun _ => True) (signedAgentSessionClaimsFromRequest e r)
      cfg.world [] (some agent) cfg.world (sessionLog cfg.world agent) := acceptable.accepted trivial
  have created : Traces ((machine e).performing fun _ => True) (agentCheckoutCreate e agent r) cfg.world
      (sessionLog cfg.world agent) answer w later :=
    Program.playLogged_traces (machine e) (fun _ _ => trivial) settled
  have served : Traces ((machine e).performing fun _ => True) ((machine e).handler (.createCheckout r))
      cfg.world [] answer w later := by
    dsimp only [machine, handler]
    unfold createCheckout
    exact accepted.bind created
  exact (traces_serves resting served).any

end Session

section Meetup
open Agents

theorem urlSymbol_plain (n : Nat) : urlSymbol n ≠ '.' ∧ isSpace (urlSymbol n) = false := by
  have small : ∀ m : Fin 64, urlSymbol m ≠ '.' ∧ isSpace (urlSymbol m) = false := by decide
  rcases Nat.lt_or_ge n 64 with inside | outside
  · exact small ⟨n, inside⟩
  · have last : urlSymbol n = '_' := by
      rw [urlSymbol, if_neg (by omega), if_neg (by omega), if_neg (by omega), if_neg (by omega)]
    rw [last]
    decide

theorem urlEncode_symbols (data : Bytes) : ∀ c ∈ urlEncode data, ∃ n, c = urlSymbol n := by
  induction data using urlEncode.induct with
  | case1 => simp [urlEncode]
  | case2 a => simp [urlEncode]
  | case3 a b => simp [urlEncode]
  | case4 a b c rest ih =>
      intro symbol member
      simp only [urlEncode, List.mem_cons] at member
      rcases member with rfl | rfl | rfl | rfl | later
      · exact ⟨_, rfl⟩
      · exact ⟨_, rfl⟩
      · exact ⟨_, rfl⟩
      · exact ⟨_, rfl⟩
      · exact ih symbol later

theorem rawURLEncode_symbols {data : Bytes} {c : Char} (member : c ∈ (rawURLEncode data).toList) :
    ∃ n, c = urlSymbol n := by
  rw [rawURLEncode, String.toList_ofList] at member
  exact urlEncode_symbols data c member

def agentToken : String := unsignedToken ++ "." ++ rawURLEncode sessionMac

theorem agentToken_plain : ∀ c ∈ agentToken.toList, isSpace c = false := by
  intro c member
  have symbol {data : Bytes} (inside : c ∈ (rawURLEncode data).toList) : isSpace c = false := by
    obtain ⟨n, rfl⟩ := rawURLEncode_symbols inside
    exact (urlSymbol_plain n).2
  have dot (inside : c ∈ ['.']) : isSpace c = false := by
    rw [List.mem_singleton.mp inside]
    decide
  simp only [agentToken, unsignedToken, String.toList_append, List.mem_append] at member
  rcases member with (((header | between) | payload) | between) | mac
  · exact symbol header
  · exact dot between
  · exact symbol payload
  · exact dot between
  · exact symbol mac

-- Both documents begin with a brace, and there is a secret to sign them with.
theorem agentToken_texts : (urlEncode jwtHeader).head? = some 'e' ∧
    (urlEncode (marshalClaims sessionClaims)).head? = some 'e' ∧ agentJWTSecret environment ≠ "" := by
  decide +kernel

theorem agentToken_first : agentToken.toList.head? = some 'e' := by
  obtain ⟨rest, runes⟩ := List.head?_eq_some_iff.mp agentToken_texts.1
  simp [agentToken, unsignedToken, rawURLEncode, runes]

theorem unsignedToken_mac : tokenSignature environment unsignedToken = sessionMac := if_pos rfl

theorem agentToken_issued : signAgentJWT environment sessionClaims = some agentToken := by
  rw [signAgentJWT, if_neg agentToken_texts.2.2]
  change some (unsignedToken ++ "." ++ rawURLEncode (tokenSignature environment unsignedToken)) = _
  rw [unsignedToken_mac, agentToken]

theorem agentToken_claims : signedClaims environment agentToken = some sessionClaims := by
  apply signedClaims_signAgentJWT agentToken_issued
  · intro data dot
    obtain ⟨n, symbol⟩ := rawURLEncode_symbols dot
    exact (urlSymbol_plain n).1 symbol.symm
  · exact if_pos rfl
  · rintro _ rfl
    change environment.rawURLDecode (rawURLEncode (tokenSignature environment unsignedToken)) =
      some (tokenSignature environment unsignedToken)
    rw [unsignedToken_mac]
    have payload := agentToken_texts.2.1
    have different : rawURLEncode sessionMac ≠ rawURLEncode (marshalClaims sessionClaims) := by
      intro same
      rw [← String.ofList_injective same] at payload
      revert payload
      decide
    exact (if_neg different).trans (if_pos rfl)
  · exact if_pos rfl

def signedCheckout : SignedRequest :=
  ⟨"POST", "/api/agent/checkout/create", "1754000060", checkoutSignature, some checkoutBody.toUTF8.toList⟩

/-- The parts of the message make the message; the signature and the key have their sizes. -/
theorem signedCheckout_texts :
    "\n".intercalate ["POST", "/api/agent/checkout/create", "1754000060", hexEncode bodyHash] = checkoutMessage ∧
    trimSpace checkoutSignature = checkoutSignature ∧
    (base58Decode agentPubkey).any (fun pub => decide (pub.length = 32)) = true ∧
    (AgentKeys.Hosts.base64Decode checkoutSignature).any (fun sig => decide (sig.length = 64)) = true := by
  decide +kernel

/-- `checkoutMessage` is what the request's signature is of. -/
theorem canonical_checkout : canonical environment.toCrypto "POST" "/api/agent/checkout/create" "1754000060"
    checkoutBody.toUTF8.toList = checkoutMessage.toUTF8.toList := by
  have hashed : environment.sha256 checkoutBody.toUTF8.toList = bodyHash := if_pos rfl
  rw [canonical, hashed, signedCheckout_texts.1]

theorem signedCheckout_holds : ∃ pub, base58Decode agentPubkey = some pub ∧ pub.length = 32 ∧
    signatureHolds environment.toCrypto signedCheckout pub 1754000060 1754000000 = true := by
  obtain ⟨_, trimmed, key, signature⟩ := signedCheckout_texts
  have stamp : trimSpace "1754000060" = "1754000060" := by decide
  obtain ⟨pub, decoded, size⟩ := (Option.any_eq_true _ _).mp key
  obtain ⟨sig, decoded', size'⟩ := (Option.any_eq_true _ _).mp signature
  simp only [decide_eq_true_eq] at size size'
  refine ⟨pub, decoded, size, ?_⟩
  have read : environment.base64Decode (trimSpace signedCheckout.signature) = some sig := by
    change AgentKeys.Hosts.base64Decode (trimSpace checkoutSignature) = _
    rw [trimmed, decoded']
  have verified : environment.ed25519Verify pub (canonical environment.toCrypto "POST"
      "/api/agent/checkout/create" "1754000060" checkoutBody.toUTF8.toList) sig = true := by
    rw [canonical_checkout]
    simp [environment, decoded, decoded']
  rw [signatureHolds, if_neg (by decide), read]
  simp only [signedCheckout, stamp, size', decide_true, Bool.true_and]
  exact verified

def day : Time := 24 * 60 * minute

def paying : Service :=
  { opening with
    world := { opening.world with
      sessions := [⟨"9b2f7c10-4a6d-4e8b-b1c3-5d7e9f012345", agentPubkey, sessionClaims.jti,
        opening.world.now + day, none⟩] } }

theorem paying_unserved : Unserved paying :=
  ⟨rfl, ⟨by decide, by simp [paying, opening]⟩, by simp [paying, opening]⟩

def replay (idempotencyKey : String) : CheckoutRequest :=
  ⟨signedCheckout, "Bearer " ++ agentToken, idempotencyKey⟩

def sessionOpen (w : World) : Bool :=
  decide (w.now = paying.world.now) && w.sessions.any fun row => row.jti = sessionClaims.jti &&
    (row.agentPubkey = agentPubkey && (row.revokedAt.isNone && w.now < row.expiresAt))

theorem acceptable_replay {w : World} (live : sessionOpen w = true) (key : String) :
    Acceptable environment w (replay key) sessionClaims := by
  simp only [sessionOpen, Bool.and_eq_true, decide_eq_true_eq] at live
  obtain ⟨same_now, live⟩ := live
  have seconds : unix w.now = 1754000000 := by
    rw [same_now]
    decide
  have some_token : agentToken ≠ "" := by
    intro none
    have first := agentToken_first
    rw [none] at first
    cases first
  have token : bearerToken (replay key).authorization = agentToken :=
    bearerToken_bearer some_token agentToken_plain
  constructor
  · rw [token]
    exact some_token
  · obtain ⟨rest, runes⟩ := List.head?_eq_some_iff.mp agentToken_first
    rw [token, hasPrefix, runes]
    rfl
  · rw [token]
    exact agentToken_claims
  · decide
  · rw [seconds]
    decide
  · simp only [runSql, Except.ok.injEq, Prod.mk.injEq, and_true]
    exact live
  · obtain ⟨pub, decoded, size, holds⟩ := signedCheckout_holds
    have signed : trimSpace (replay key).signed.signature = checkoutSignature := signedCheckout_texts.2.1
    refine ⟨pub, 1754000060, decoded, size, ?_, ?_, ?_, ?_⟩
    · change trimSpace "1754000060" ≠ ""
      decide
    · rw [signed]
      decide
    · change parseInt (trimSpace "1754000060") = _
      decide
    · rw [seconds]
      exact holds

def settlement (key : String) (choices : List Choice) (w : World) : Option (Answer × World × Log Reply) :=
  (agentCheckoutCreate environment sessionClaims (replay key)).playLogged exec choices w
    (sessionLog w sessionClaims)

def twice (key : String) (first second : List Choice) : Option (World × Log Reply × Log Reply) :=
  (settlement key first paying.world).bind fun (_, middle, log) =>
    if sessionOpen middle then
      (settlement key second middle).map fun (_, after, later) => (after, log, later)
    else none

def replayed (key : String) (log : Log Reply) (answer : Answer) : ServiceThread :=
  ⟨.createCheckout (replay key), log, .ret answer⟩

theorem twice_reaches {key : String} {choices choices' : List Choice} {w : World} {log later : Log Reply}
    (ran : twice key choices choices' = some (w, log, later)) :
    ∃ answer answer', (machine environment).Reaches anyStep paying
      ⟨w, [replayed key log answer, replayed key later answer']⟩ := by
  simp only [twice, Option.bind_eq_some_iff] at ran
  obtain ⟨⟨answer, middle, first⟩, settled, ran⟩ := ran
  split at ran
  · next live =>
    obtain ⟨⟨answer', after, second⟩, settled', same⟩ := Option.map_eq_some_iff.mp ran
    cases same
    have open_first : sessionOpen paying.world = true := by decide
    have reached : (machine environment).Reaches anyStep paying ⟨middle, [replayed key first answer]⟩ :=
      (acceptable_replay open_first key).reaches (by decide) settled
    have rested : idle (⟨middle, [replayed key first answer]⟩ : Service) = true := by
      simp [idle, replayed, Program.finished]
    have again : (machine environment).Reaches anyStep ⟨middle, [replayed key first answer]⟩
        ⟨after, [replayed key first answer, replayed key second answer']⟩ :=
      (acceptable_replay live key).reaches rested settled'
    exact ⟨answer, answer', reached.trans again⟩
  · cases ran

def confirms (log : Log Reply) (row : IntentRow) : Bool :=
  (row.status = .confirmed && row.agentPubkey = agentPubkey) && log.any fun
    | ⟨.sql (.confirmIntent id _), .ok _⟩ => id = row.id
    | _ => false

theorem settles_of_confirms {w : World} {threads : List ServiceThread} {key : String} {log : Log Reply}
    {answer : Answer} {row : IntentRow} (trimmed : trimSpace key = key) (member : row ∈ w.intents)
    (confirmed : confirms log row = true) :
    Settles ⟨w, threads⟩ (replayed key log answer) signedCheckout agentPubkey key row := by
  simp only [confirms, Bool.and_eq_true, decide_eq_true_eq, List.any_eq_true] at confirmed
  obtain ⟨⟨status, agent⟩, entry, among, confirmed⟩ := confirmed
  refine ⟨⟨replay key, rfl, rfl, trimmed⟩, member, status, agent, ?_⟩
  split at confirmed
  · simp only [decide_eq_true_eq] at confirmed
    subst confirmed
    exact ⟨_, among⟩
  · cases confirmed

def draws (uuids : List String) : List Choice := uuids.map fun uuid => ⟨none, some uuid⟩

def answers (count : Nat) : List Choice := List.replicate count ⟨none, none⟩

def keyless (intentID txID : String) : List Choice :=
  answers 2 ++ draws [intentID] ++ answers 1 ++ draws [txID] ++ answers 1

/-- Replayed with its key, the request settles nothing new. -/
theorem replays_settle_once_meetup : ∃ (last : Service) (first second : ServiceThread) (row : IntentRow),
    first ∈ last.threads ∧ second ∈ last.threads ∧
    Settles last first signedCheckout agentPubkey "order-1" row ∧ InWindow first signedCheckout ∧
    ∀ row', Settles last second signedCheckout agentPubkey "order-1" row' → row = row' := by
  have settled : (twice "order-1" (answers 1 ++ keyless "2a4c6e80-1b3d-4f5a-8c7e-9d0b1f2e3a4c"
      "3b5d7f91-2c4e-4a6b-9d8f-0e1c2a3f4b5d") (answers 3)).any fun (w, log, _) =>
        w.intents.any (confirms log) = true := by decide +kernel
  obtain ⟨⟨w, log, later⟩, ran, confirmed⟩ := (Option.any_eq_true _ _).mp settled
  obtain ⟨answer, answer', run⟩ := twice_reaches ran
  simp only [decide_eq_true_eq, List.any_eq_true] at confirmed
  obtain ⟨row, member, confirmed⟩ := confirmed
  have settles : Settles ⟨w, [replayed "order-1" log answer, replayed "order-1" later answer']⟩
      (replayed "order-1" log answer) signedCheckout agentPubkey "order-1" row :=
    settles_of_confirms (by decide) member confirmed
  have window := (replays_settle_once paying_unserved run List.mem_cons_self List.mem_cons_self settles
    settles).1
  refine ⟨_, _, _, row, List.mem_cons_self, List.mem_cons_of_mem _ List.mem_cons_self, settles, window, ?_⟩
  intro row' settles'
  exact (replays_settle_once paying_unserved run List.mem_cons_self
    (List.mem_cons_of_mem _ List.mem_cons_self) settles settles').2 (by decide)

/-- Replayed without a key, it settles again. -/
theorem replay_settles_twice : ∃ (last : Service) (first second : ServiceThread) (row row' : IntentRow),
    Unserved paying ∧ (machine environment).Reaches anyStep paying last ∧
    first ∈ last.threads ∧ second ∈ last.threads ∧
    Settles last first signedCheckout agentPubkey "" row ∧
    Settles last second signedCheckout agentPubkey "" row' ∧ row ≠ row' := by
  have settled : (twice "" (keyless "2a4c6e80-1b3d-4f5a-8c7e-9d0b1f2e3a4c"
      "3b5d7f91-2c4e-4a6b-9d8f-0e1c2a3f4b5d") (keyless "4c6e8f02-3d5f-4b7c-8e9a-1f2d3b4a5c6e"
      "5d7f9013-4e6a-4c8d-9fab-2a3e4c5b6d7f")).any fun (w, log, later) =>
        w.intents.any fun row => confirms log row && w.intents.any fun row' =>
          confirms later row' && row.id ≠ row'.id := by decide +kernel
  obtain ⟨⟨w, log, later⟩, ran, confirmed⟩ := (Option.any_eq_true _ _).mp settled
  obtain ⟨answer, answer', run⟩ := twice_reaches ran
  simp only [List.any_eq_true, Bool.and_eq_true, decide_eq_true_eq] at confirmed
  obtain ⟨row, member, confirmed, row', member', confirmed', different⟩ := confirmed
  exact ⟨_, _, _, row, row', paying_unserved, run, List.mem_cons_self,
    List.mem_cons_of_mem _ List.mem_cons_self, settles_of_confirms (by decide) member confirmed,
    settles_of_confirms (by decide) member' confirmed', fun same => different (same ▸ rfl)⟩

end Meetup

end Payknot.AgentRuntime
