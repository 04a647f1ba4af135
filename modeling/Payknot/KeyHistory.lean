import Payknot.AgentKeys
import Mathlib.Data.List.Nodup

/-! What the key endpoints do to table and cache, and what a call has seen when it
answers: the keys in force are those of a cached map or of one read of the table. -/
namespace Payknot.AgentKeys
open GoText Interleaving Machine

variable {e : Environment} {a : String}

section Maps

@[simp] theorem lookupKey_none (agentID : String) : lookupKey none agentID = none := rfl

@[simp] theorem lookupKey_nil (agentID : String) : lookupKey (some []) agentID = none := rfl

theorem collectKeys_eq (entries : List (String × String)) :
    collectKeys e entries = (entries.filterMap fun entry => usableKey e entry.1 entry.2).reverse := by
  suffices ∀ out : KeyMap, entries.foldl (addKey e) out =
      (entries.filterMap fun entry => usableKey e entry.1 entry.2).reverse ++ out by
    simpa [collectKeys] using this []
  intro out
  induction entries generalizing out with
  | nil => rfl
  | cons entry rest ih =>
      rw [List.foldl_cons, ih, List.filterMap_cons, addKey]
      cases usableKey e entry.1 entry.2 with
      | none => rfl
      | some usable => simp [KeyMap.set]

theorem lookupKey_mem {keys : KeyMap} {key : Bytes} (found : lookupKey (some keys) a = some key) :
    (a, key) ∈ keys := by
  simp only [lookupKey, Option.getD_some, Option.map_eq_some_iff] at found
  obtain ⟨⟨id, stored⟩, at_id, rfl⟩ := found
  have same := List.find?_some at_id
  simp only [decide_eq_true_eq] at same
  subst same
  exact List.mem_of_find?_eq_some at_id

theorem lookupKey_eq_none {keys : KeyMap} (absent : ∀ key, (a, key) ∉ keys) :
    lookupKey (some keys) a = none := by
  cases found : lookupKey (some keys) a with
  | none => rfl
  | some key => exact absurd (lookupKey_mem found) (absent key)

theorem mem_collectKeys {entries : List (String × String)} {id : String} {key : Bytes} :
    (id, key) ∈ collectKeys e entries ↔
      ∃ entry ∈ entries, usableKey e entry.1 entry.2 = some (id, key) := by
  rw [collectKeys_eq, List.mem_reverse, List.mem_filterMap]

theorem usableKey_id {agentID keyB64 id : String} {key : Bytes}
    (usable : usableKey e agentID keyB64 = some (id, key)) :
    id = trimSpace agentID ∧ e.base64Decode (trimSpace keyB64) = some key := by
  simp only [usableKey] at usable
  split at usable
  · next keyBytes decoded =>
    split at usable
    · cases usable
      exact ⟨rfl, decoded⟩
    · cases usable
  · cases usable

end Maps

section Table

structure Tidy (rows : List KeyRow) : Prop where
  trimmed : ∀ row ∈ rows, trimSpace row.agentId = row.agentId
  unique : (rows.map KeyRow.agentId).Nodup

def rowOf (rows : List KeyRow) (agentID : String) : Option KeyRow :=
  rows.find? (·.agentId = agentID)

def rowKey (e : Environment) (row : KeyRow) : Option Bytes :=
  if row.inForce then (usableKey e row.agentId row.publicKeyBase64).map Prod.snd else none

def tableKey (e : Environment) (rows : List KeyRow) (agentID : String) : Option Bytes :=
  lookupKey (some (collectKeys e (activeKeys rows))) agentID

theorem rowOf_agentId {rows : List KeyRow} {row : KeyRow} (found : rowOf rows a = some row) :
    row.agentId = a := by
  simpa using List.find?_some found

theorem rowOf_mem {rows : List KeyRow} {row : KeyRow} (found : rowOf rows a = some row) :
    row ∈ rows :=
  List.mem_of_find?_eq_some found

theorem rowOf_of_mem {rows : List KeyRow} {row : KeyRow} (tidy : Tidy rows) (member : row ∈ rows) :
    rowOf rows row.agentId = some row := by
  have unique := tidy.unique
  clear tidy
  induction rows with
  | nil => cases member
  | cons first rest ih =>
      rw [List.map_cons, List.nodup_cons] at unique
      rcases List.mem_cons.mp member with rfl | later
      · simp [rowOf]
      · have other : first.agentId ≠ row.agentId := by
          intro same
          exact unique.1 (same ▸ List.mem_map_of_mem later)
        simpa [rowOf, other] using ih later unique.2

-- An agent's key in the table is the key of its row.
theorem tableKey_eq {rows : List KeyRow} (tidy : Tidy rows) (agentID : String) :
    tableKey e rows agentID = (rowOf rows agentID).bind (rowKey e) := by
  have entry {key : Bytes} (among : (agentID, key) ∈ collectKeys e (activeKeys rows)) :
      ∃ row, rowOf rows agentID = some row ∧ rowKey e row = some key := by
    obtain ⟨⟨id, keyB64⟩, listed, usable⟩ := mem_collectKeys.mp among
    obtain ⟨row, member, same⟩ := List.mem_map.mp listed
    cases same
    obtain ⟨inside, in_force⟩ := List.mem_filter.mp member
    have of_id : agentID = row.agentId := (usableKey_id usable).1.trans (tidy.trimmed row inside)
    subst of_id
    exact ⟨row, rowOf_of_mem tidy inside, by simp [rowKey, in_force, usable]⟩
  cases found : tableKey e rows agentID with
  | some key =>
      obtain ⟨row, at_id, of_row⟩ := entry (lookupKey_mem found)
      rw [at_id, Option.bind_some, of_row]
  | none =>
      symm
      rw [Option.bind_eq_none_iff]
      intro row at_id
      by_contra some_key
      obtain ⟨key, of_row⟩ := Option.ne_none_iff_exists'.mp some_key
      unfold rowKey at of_row
      split at of_row
      · next in_force =>
        obtain ⟨⟨id, bytes⟩, usable, rfl⟩ := Option.map_eq_some_iff.mp of_row
        have of_id := (usableKey_id usable).1
        rw [tidy.trimmed row (rowOf_mem at_id), rowOf_agentId at_id] at of_id
        subst of_id
        have among : (id, bytes) ∈ collectKeys e (activeKeys rows) :=
          mem_collectKeys.mpr ⟨(row.agentId, row.publicKeyBase64),
            List.mem_map.mpr ⟨row, List.mem_filter.mpr ⟨rowOf_mem at_id, in_force⟩, rfl⟩, usable⟩
        simp only [tableKey, lookupKey, Option.getD_some, Option.map_eq_none_iff,
          List.find?_eq_none] at found
        exact absurd (decide_eq_true rfl) (found _ among)
      · cases of_row

theorem map_agentId {rows : List KeyRow} {change : KeyRow → KeyRow}
    (keeps : ∀ row, (change row).agentId = row.agentId) :
    (rows.map change).map KeyRow.agentId = rows.map KeyRow.agentId := by
  rw [List.map_map]
  exact List.map_congr_left fun row _ => keeps row

theorem Tidy.map {rows : List KeyRow} (tidy : Tidy rows) {change : KeyRow → KeyRow}
    (keeps : ∀ row, (change row).agentId = row.agentId) : Tidy (rows.map change) := by
  constructor
  · intro row member
    obtain ⟨old, among, rfl⟩ := List.mem_map.mp member
    rw [keeps]
    exact tidy.trimmed old among
  · rw [map_agentId keeps]
    exact tidy.unique

theorem rowOf_map {rows : List KeyRow} {change : KeyRow → KeyRow}
    (keeps : ∀ row, (change row).agentId = row.agentId) (agentID : String) :
    rowOf (rows.map change) agentID = (rowOf rows agentID).map change := by
  have same : (fun row : KeyRow => decide (row.agentId = agentID)) ∘ change =
      fun row => decide (row.agentId = agentID) := by
    funext row
    rw [Function.comp_apply, keeps]
  unfold rowOf
  rw [List.find?_map, same]

theorem Tidy.upsertRow {rows : List KeyRow} (tidy : Tidy rows) {agentID key createdBy : String}
    (trimmed : trimSpace agentID = agentID) : Tidy (upsertRow agentID key createdBy rows) := by
  unfold AgentKeys.upsertRow
  split
  · apply tidy.map
    intro row
    split <;> rfl
  · next absent =>
    constructor
    · intro row member
      rcases List.mem_append.mp member with old | new
      · exact tidy.trimmed row old
      · rw [List.mem_singleton] at new
        subst new
        exact trimmed
    · rw [List.map_append, List.nodup_append]
      refine ⟨tidy.unique, by simp, ?_⟩
      intro old among new only same
      obtain ⟨row, member, rfl⟩ := List.mem_map.mp among
      simp only [List.map_cons, List.map_nil, List.mem_singleton] at only
      subst only
      exact absent (List.any_eq_true.mpr ⟨row, member, by simpa using same⟩)

theorem Tidy.revokeRow {rows : List KeyRow} (tidy : Tidy rows) (agentID : String) (now : Time) :
    Tidy (revokeRow agentID now rows) := by
  apply tidy.map
  intro row
  split <;> rfl

theorem rowOf_upsertRow (rows : List KeyRow) (agentID key createdBy other : String) :
    rowOf (upsertRow agentID key createdBy rows) other =
      if other = agentID then
        some (((rowOf rows agentID).map (·.overwrite key createdBy)).getD
          ⟨agentID, key, true, createdBy, none⟩)
      else rowOf rows other := by
  unfold upsertRow
  split
  · next present =>
    rw [rowOf_map (by intro row; split <;> rfl)]
    cases found : rowOf rows other with
    | none =>
        by_cases same : other = agentID
        · subst same
          obtain ⟨row, member, of_id⟩ := List.any_eq_true.mp present
          exact absurd of_id (List.find?_eq_none.mp found row member)
        · simp [same]
    | some row =>
        have of_id := rowOf_agentId found
        by_cases same : other = agentID
        · subst same
          simp [found, of_id]
        · simp [same, of_id]
  · next absent =>
    have nobody : rowOf rows agentID = none := by
      rw [rowOf, List.find?_eq_none]
      intro row member of_id
      exact absent (List.any_eq_true.mpr ⟨row, member, of_id⟩)
    by_cases same : other = agentID
    · subst same
      simp only [rowOf] at nobody
      simp [rowOf, List.find?_append, nobody]
    · simp [rowOf, List.find?_append, same, Ne.symm same]

theorem rowOf_revokeRow (rows : List KeyRow) (agentID : String) (now : Time) (other : String) :
    rowOf (revokeRow agentID now rows) other =
      (rowOf rows other).map fun row =>
        if other = agentID then { row with active := false, revokedAt := some now } else row := by
  unfold revokeRow
  rw [rowOf_map (by intro row; split <;> rfl)]
  cases found : rowOf rows other with
  | none => rfl
  | some row => simp [rowOf_agentId found]

-- After a revocation the table has no key for the agent.
theorem tableKey_revokeRow {rows : List KeyRow} (tidy : Tidy rows) (agentID : String) (now : Time) :
    tableKey e (revokeRow agentID now rows) agentID = none := by
  rw [tableKey_eq (tidy.revokeRow agentID now), rowOf_revokeRow]
  cases rowOf rows agentID with
  | none => rfl
  | some row => simp [rowKey, KeyRow.inForce]

theorem tableKey_revokeRow_other {rows : List KeyRow} (tidy : Tidy rows) {agentID other : String}
    (now : Time) (differs : other ≠ agentID) :
    tableKey e (revokeRow agentID now rows) other = tableKey e rows other := by
  rw [tableKey_eq (tidy.revokeRow agentID now), tableKey_eq tidy, rowOf_revokeRow]
  simp [differs]

-- After a registration the table has the registered key.
theorem tableKey_upsertRow {rows : List KeyRow} (tidy : Tidy rows) {agentID key : String}
    {createdBy : String} {bytes : Bytes} (trimmed : trimSpace agentID = agentID) (named : agentID ≠ "")
    (decoded : e.base64Decode (trimSpace key) = some bytes) (size : bytes.length = 32) :
    tableKey e (upsertRow agentID key createdBy rows) agentID = some bytes := by
  rw [tableKey_eq (tidy.upsertRow trimmed), rowOf_upsertRow, if_pos rfl, Option.bind_some]
  cases found : rowOf rows agentID with
  | none => simp [rowKey, KeyRow.inForce, usableKey, trimmed, named, decoded, size]
  | some row =>
      simp [rowKey, KeyRow.overwrite, KeyRow.inForce, usableKey, trimmed, named, decoded, size,
        rowOf_agentId found]

theorem tableKey_upsertRow_other {rows : List KeyRow} (tidy : Tidy rows) {agentID key other : String}
    {createdBy : String} (trimmed : trimSpace agentID = agentID) (differs : other ≠ agentID) :
    tableKey e (upsertRow agentID key createdBy rows) other = tableKey e rows other := by
  rw [tableKey_eq (tidy.upsertRow trimmed), tableKey_eq tidy, rowOf_upsertRow, if_neg differs]

end Table

section Effects
variable {choice : Choice} {op : Op} {w after : World}

theorem exec_rows {reply : Reply op} (executed : exec choice op w = some (reply, after)) :
    after.rows = w.rows ∨
    (∃ agentID key createdBy, op = .sql (.upsertKey agentID key createdBy) ∧ choice.fault = none ∧
      after.rows = upsertRow agentID key createdBy w.rows) ∨
    (∃ agentID, op = .sql (.revokeKey agentID) ∧ choice.fault = none ∧
      after.rows = revokeRow agentID w.now w.rows) := by
  cases op with
  | sql statement =>
      simp only [exec, runSql, Option.some.injEq] at executed
      split at executed
      · cases executed
        exact .inl rfl
      · next sound =>
        cases statement with
        | selectActiveKeys =>
            cases executed
            exact .inl rfl
        | upsertKey agentID key createdBy =>
            cases executed
            exact .inr (.inl ⟨agentID, key, createdBy, rfl, sound, rfl⟩)
        | revokeKey agentID =>
            cases executed
            exact .inr (.inr ⟨agentID, rfl, sound, rfl⟩)
  | now | readCache | writeCache | invalidateCache =>
      cases executed
      exact .inl rfl

theorem exec_cache {reply : Reply op} (executed : exec choice op w = some (reply, after)) :
    after.cache = w.cache ∨
    (∃ keys expiresAt, op = .writeCache keys expiresAt ∧ after.cache = ⟨keys, expiresAt⟩) ∨
    (op = .invalidateCache ∧ after.cache = ⟨none, 0⟩) := by
  cases op with
  | sql statement =>
      simp only [exec, runSql, Option.some.injEq] at executed
      split at executed
      · cases executed
        exact .inl rfl
      · cases statement with
        | selectActiveKeys | upsertKey | revokeKey =>
            cases executed
            exact .inl rfl
  | now | readCache =>
      cases executed
      exact .inl rfl
  | writeCache keys expiresAt =>
      cases executed
      exact .inr (.inl ⟨keys, expiresAt, rfl, rfl⟩)
  | invalidateCache =>
      cases executed
      exact .inr (.inr ⟨rfl, rfl⟩)

end Effects

section History

inductive Changed (agentID : String) : Log Reply → Prop where
  | upsert (key createdBy rest) : Changed agentID (⟨.sql (.upsertKey agentID key createdBy), .ok ()⟩ :: rest)
  | revoke (rest) : Changed agentID (⟨.sql (.revokeKey agentID), .ok ()⟩ :: rest)

/-- The map a refresh puts in force after this answer of the database. -/
def refreshed (e : Environment) (reply : Except Fault (List (String × String))) : Option KeyMap :=
  keysInForce e (reply.map (collectKeys e))

/-- Where a call of `agentPublicKeys` has its map from. -/
inductive Source (e : Environment) (log : Log Reply) : Option KeyMap → Prop where
  | cached {keys expiresAt} : log.Saw .readCache ⟨some keys, expiresAt⟩ → Source e log (some keys)
  | read {reply} : log.Saw (.sql .selectActiveKeys) reply → Source e log (refreshed e reply)

/-- The request registers this key for this agent, on behalf of this host. -/
def Request.Supplies (e : Environment) (request : Request) (agentID key host : String) : Prop :=
  ∃ claims body bytes, request = .upsert (some claims) (some body) ∧ agentID = trimSpace body.agentID ∧
    agentID ≠ "" ∧ key = trimSpace body.publicKeyBase64 ∧ host = claims.email ∧
    e.base64Decode key = some bytes ∧ bytes.length = 32

def Request.Revokes (request : Request) (agentID : String) : Prop :=
  ∃ claims r req, request = .revoke claims r ∧ r.body = some req ∧ agentID = trimSpace req.agentID

/-- What a request has seen when it issues an operation: a change is followed by the
invalidation at once, a read of the table by the write to the cache. -/
def Issues (e : Environment) (request : Request) (log : Log Reply) (op : Op) : Prop :=
  (∀ agentID, Changed agentID log → op = .invalidateCache) ∧
    match op with
    | .sql (.upsertKey agentID key createdBy) => request.Supplies e agentID key createdBy
    | .sql (.revokeKey agentID) => request.Revokes agentID
    | .writeCache keys _ =>
        ∃ reply rest, log = ⟨.sql .selectActiveKeys, reply⟩ :: rest ∧ keys = refreshed e reply
    | .invalidateCache => ∃ agentID, Changed agentID log
    | _ => True

def Ends (e : Environment) (request : Request) (log : Log Reply) (answer : Answer) : Prop :=
  (∀ agentID, ¬ Changed agentID log) ∧
    match answer with
    | .ok agentID => ∃ rest, log = ⟨.invalidateCache, ()⟩ :: rest ∧ Changed agentID rest
    | .keys keys => Source e log keys
    | .verified (some _) => ∃ agentID r keys key ts now, request = .verify agentID r ∧
        Source e log keys ∧ lookupKey keys (trimSpace agentID) = some key ∧
        signatureHolds e.toCrypto r key ts now = true
    | _ => True

variable {request : Request} {log : Log Reply}

theorem Source.mono {later : Log Reply} {keys : Option KeyMap} (source : Source e log keys)
    (grown : log <:+ later) : Source e later keys := by
  cases source with
  | cached saw => exact .cached (saw.mono grown)
  | read saw => exact .read (saw.mono grown)

theorem along_agentPublicKeys (unchanged : ∀ agentID, ¬ Changed agentID log) :
    (agentPublicKeys e).Along (Issues e request)
      (fun log keys => Source e log keys ∧ ∀ agentID, ¬ Changed agentID log) log := by
  unfold agentPublicKeys timeNow
  rw [Program.along_perform_bind]
  refine ⟨⟨fun id changed => absurd changed (unchanged id), trivial⟩, fun now => ?_⟩
  unfold readCache
  rw [Program.along_perform_bind]
  refine ⟨⟨?_, trivial⟩, fun cache => ?_⟩
  · rintro _ ⟨⟩
  · split
    · next cached fresh =>
      rw [Program.along_pure]
      refine ⟨?_, by rintro _ ⟨⟩⟩
      obtain ⟨stored, expiresAt⟩ := cache
      simp only [AgentKeyCache.fresh] at fresh
      split at fresh
      · subst fresh
        exact .cached List.mem_cons_self
      · cases fresh
    · unfold agentPublicKeysFromDB sql writeCache
      rw [Program.along_bind, Program.along_perform_bind]
      refine ⟨⟨?_, trivial⟩, fun reply => ?_⟩
      · rintro _ ⟨⟩
      · cases reply with
        | error fault =>
            rw [Program.along_pure, Program.along_perform_bind]
            refine ⟨⟨?_, .error fault, _, rfl, rfl⟩, fun _ => ?_⟩
            · rintro _ ⟨⟩
            · rw [Program.along_pure]
              exact ⟨@Source.read e _ (.error fault) (List.mem_cons_of_mem _ List.mem_cons_self),
                by rintro _ ⟨⟩⟩
        | ok rows =>
            rw [Program.along_pure, Program.along_perform_bind]
            refine ⟨⟨?_, .ok rows, _, rfl, rfl⟩, fun _ => ?_⟩
            · rintro _ ⟨⟩
            · rw [Program.along_pure]
              exact ⟨@Source.read e _ (.ok rows) (List.mem_cons_of_mem _ List.mem_cons_self),
                by rintro _ ⟨⟩⟩

theorem along_verifyAgentSignature (agentID : String) (r : SignedRequest) :
    (verifyAgentSignature e agentID r).Along (Issues e (.verify agentID r))
      (fun log claims => Ends e (.verify agentID r) log (.verified claims)) [] := by
  have nothing {log : Log Reply} (unchanged : ∀ id, ¬ Changed id log) :
      Ends e (.verify agentID r) log (.verified none) := ⟨unchanged, trivial⟩
  simp only [verifyAgentSignature]
  split
  · rw [Program.along_pure]
    exact nothing (by rintro _ ⟨⟩)
  · refine (along_agentPublicKeys (by rintro _ ⟨⟩)).sequence fun log keys _ ⟨source, unchanged⟩ => ?_
    split
    · rw [Program.along_pure]
      exact nothing unchanged
    · next pub found =>
      have reads : timeNow.Along (Issues e (.verify agentID r))
          (fun after _ => (log <:+ after ∧ ∀ id, ¬ Changed id after) ∧ True) log := by
        rw [timeNow, Program.perform, Program.along_call]
        refine ⟨⟨fun id changed => absurd changed (unchanged id), trivial⟩, fun now => ?_⟩
        rw [Program.along_ret]
        exact ⟨⟨List.suffix_cons _ _, by rintro _ ⟨⟩⟩, trivial⟩
      refine (along_verifyEd25519RequestSignature reads
        ⟨List.suffix_refl _, unchanged⟩).sequence fun log' accepted _ ⟨⟨grown, kept⟩, checked⟩ => ?_
      split
      · next holds =>
        obtain ⟨ts, now, _, _, holds⟩ := checked holds
        unfold timeNow
        rw [Program.along_perform_bind]
        refine ⟨⟨fun id changed => absurd changed (kept id), trivial⟩, fun issued => ?_⟩
        rw [Program.along_pure]
        exact ⟨by rintro _ ⟨⟩, agentID, r, keys, pub, ts, unix now, rfl,
          source.mono (grown.trans (List.suffix_cons _ _)), found, holds⟩
      · rw [Program.along_pure]
        exact nothing kept

theorem along_upsertAgentKey (claims : Option AuthClaims) (body : Option AgentKeyUpsertRequest) :
    (upsertAgentKey e claims body).Along (Issues e (.upsert claims body))
      (Ends e (.upsert claims body)) [] := by
  have refused (text : String) (status : Nat) :
      Ends e (.upsert claims body) [] (.error text status) := ⟨by rintro _ ⟨⟩, trivial⟩
  unfold upsertAgentKey
  cases claims with
  | none =>
      rw [Program.along_pure]
      exact refused _ _
  | some claims =>
      cases body with
      | none =>
          rw [Program.along_pure]
          exact refused _ _
      | some req =>
          simp only
          split
          · rw [Program.along_pure]
            exact refused _ _
          · next given =>
            split
            · next decoded found =>
              split
              · rw [Program.along_pure]
                exact refused _ _
              · next size =>
                unfold sql invalidateAgentKeyCache
                rw [Program.along_perform_bind]
                refine ⟨⟨by rintro _ ⟨⟩, ?_⟩, fun reply => ?_⟩
                · push Not at given size
                  exact ⟨claims, req, decoded, rfl, rfl, given.1, rfl, rfl, found, size⟩
                · cases reply with
                  | error fault =>
                      rw [Program.along_pure]
                      exact ⟨by rintro _ ⟨⟩, trivial⟩
                  | ok done =>
                      rw [Program.along_perform_bind]
                      refine ⟨⟨fun _ _ => rfl, _, .upsert _ _ _⟩, fun _ => ?_⟩
                      rw [Program.along_pure]
                      exact ⟨by rintro _ ⟨⟩, _, rfl, .upsert _ _ _⟩
            · rw [Program.along_pure]
              exact refused _ _

theorem along_revokeAgentKey (claims : Option AuthClaims) (r : HttpRequest AgentKeyRevokeRequest) :
    (revokeAgentKey r).Along (Issues e (.revoke claims r)) (Ends e (.revoke claims r)) [] := by
  have refused (text : String) (status : Nat) :
      Ends e (.revoke claims r) [] (.error text status) := ⟨by rintro _ ⟨⟩, trivial⟩
  obtain ⟨method, body⟩ := r
  unfold revokeAgentKey
  split
  · rw [Program.along_pure]
    exact refused _ _
  · cases body with
    | none =>
        rw [Program.along_pure]
        exact refused _ _
    | some req =>
        simp only
        split
        · rw [Program.along_pure]
          exact refused _ _
        · unfold sql invalidateAgentKeyCache
          rw [Program.along_perform_bind]
          refine ⟨⟨by rintro _ ⟨⟩, claims, _, req, rfl, rfl, rfl⟩, fun reply => ?_⟩
          cases reply with
          | error fault =>
              rw [Program.along_pure]
              exact ⟨by rintro _ ⟨⟩, trivial⟩
          | ok done =>
              rw [Program.along_perform_bind]
              refine ⟨⟨fun _ _ => rfl, _, .revoke _⟩, fun _ => ?_⟩
              rw [Program.along_pure]
              exact ⟨by rintro _ ⟨⟩, _, rfl, .revoke _⟩

theorem along_handler (request : Request) :
    (handler e request).Along (Issues e request) (Ends e request) [] := by
  cases request with
  | upsert claims body => exact along_upsertAgentKey claims body
  | revoke claims r => exact along_revokeAgentKey claims r
  | agentPublicKeys =>
      refine (along_agentPublicKeys (by rintro _ ⟨⟩)).sequence fun log keys _ ⟨source, unchanged⟩ => ?_
      rw [Program.along_pure]
      exact ⟨unchanged, source⟩
  | verify agentID r =>
      refine (along_verifyAgentSignature agentID r).sequence fun log claims _ ended => ?_
      rw [Program.along_pure]
      exact ended

end History

section Runs

structure Fresh (cfg : Service) : Prop where
  threads : cfg.threads = []
  tidy : Tidy cfg.world.rows

/-- Every request is where its history allows it to be, and the table is tidy. -/
structure Orderly (e : Environment) (cfg : Service) : Prop where
  disciplined : Disciplined (Issues e) (Ends e) cfg
  tidy : Tidy cfg.world.rows

variable {cfg after : Service} {label : ServiceLabel}

theorem Fresh.orderly (fresh : Fresh cfg) : Orderly e cfg := by
  refine ⟨?_, fresh.tidy⟩
  intro thread member
  rw [fresh.threads] at member
  cases member

theorem Orderly.next (orderly : Orderly e cfg) (stepped : (machine e).next cfg label = some after) :
    Orderly e after := by
  refine ⟨disciplined_next along_handler orderly.disciplined stepped, ?_⟩
  rcases next_cases stepped with ⟨_, _, rfl⟩ | ⟨_, _, _, occurred, rfl⟩ |
    ⟨index, choice, thread, op, rest, reply, world, _, at_index, program, executed, rfl⟩
  · exact orderly.tidy
  · cases occurred
    exact orderly.tidy
  · have warrant := orderly.disciplined.issues (List.mem_of_getElem? at_index) ⟨rest, program⟩
    rcases exec_rows executed with same | ⟨agentID, key, createdBy, rfl, _, same⟩ |
      ⟨agentID, rfl, _, same⟩
    · rw [same]
      exact orderly.tidy
    · rw [same]
      obtain ⟨claims, body, bytes, _, rfl, _⟩ := warrant.2
      exact orderly.tidy.upsertRow (trimSpace_trimSpace _)
    · rw [same]
      exact orderly.tidy.revokeRow _ _

theorem orderly_reached {allowed : Service → ServiceLabel → Prop} {first last : Service}
    (orderly : Orderly e first) (run : (machine e).Reaches allowed first last) : Orderly e last :=
  run.invariant _ orderly fun _ _ _ held _ stepped => held.next stepped

end Runs

end Payknot.AgentKeys
