import Payknot.ServerHistory
import Payknot.EmailedTokens
import Payknot.Agents

/-! Events belong to their creator. Every statement that changes or removes an event names
its owner, and the owner it names is the caller the request was authenticated as; an
event's number is not given to another event again. -/
namespace Payknot.Server
open GoText Interleaving Machine

variable {e : Environment} {cfg after init : Service} {label : ServiceLabel}

/-- The primary key of `events` and the sequence behind it. -/
structure Catalogued (w : Payknot.World) : Prop where
  distinct : (w.events.map EventRow.id).Nodup
  drawn : ∀ row ∈ w.events, row.id.toInt < w.nextEventId

section Catalogue
variable {p : Platform} {choice : Payknot.Choice} {op : Payknot.Op} {w w' : Payknot.World} {reply : Payknot.Reply op}

theorem Catalogued.same (catalogued : Catalogued w) {row row' : EventRow} (member : row ∈ w.events)
    (member' : row' ∈ w.events) (same : row.id = row'.id) : row = row' :=
  List.inj_on_of_nodup_map catalogued.distinct member member' same

theorem eventIds_grow (executed : Payknot.exec p choice op w = some (reply, w')) :
    w.nextEventId ≤ w'.nextEventId := by
  by_cases draws : Part.eventIds ∈ op.writes
  · cases op with
    | sql statement =>
        cases statement with
        | insertEvent slug ownerEmail columns =>
            rcases exec_events executed with unchanged | ⟨_, _, _, _, _, _, next⟩ | ⟨_, _, _, other, _⟩ |
              ⟨_, _, other, _⟩
            · rcases exec_sql executed with ⟨_, _, rfl⟩ | ⟨value, _, ran⟩
              · exact Nat.le_refl _
              · simp only [Sql.run] at ran
                split at ran
                · cases ran
                · split at ran
                  · cases ran
                    exact Nat.le_succ _
                  · cases ran
            · omega
            · cases other
            · cases other
        | _ => simp [Op.writes, Sql.writes] at draws
    | redis command => cases command <;> simp [Op.writes] at draws
    | _ => simp [Op.writes] at draws
  · exact (exec_frame .eventIds executed draws).ge

-- What an operation makes of an event that was there.
theorem event_fate (catalogued : Catalogued w) (executed : Payknot.exec p choice op w = some (reply, w'))
    {row : EventRow} (member : row ∈ w.events) :
    row ∈ w'.events ∨ (∃ columns, op = .sql (.updateEvent row.id row.ownerEmail columns)) ∨
      op = .sql (.deleteEvent row.id row.ownerEmail) := by
  rcases exec_events executed with unchanged | ⟨_, _, _, _, added, _⟩ | ⟨id, owner, columns, rfl, updated⟩ |
    ⟨id, owner, rfl, owned, removed⟩
  · rw [unchanged]
    exact .inl member
  · rw [added]
    exact .inl (List.mem_append_left _ member)
  · rw [updated]
    rcases updateWhere_mem (fun row => row.id = id && row.ownerEmail = owner)
      (fun row => { row with columns := columns }) member with ⟨selected, _⟩ | ⟨_, kept⟩
    · simp only [Bool.and_eq_true, decide_eq_true_eq] at selected
      exact .inr (.inl ⟨columns, by rw [selected.1, selected.2]⟩)
    · exact .inl kept
  · by_cases same : row.id = id
    · -- The row that made the count is this one: ids are unique.
      obtain ⟨other, among, selected⟩ := List.countP_pos_iff.mp (Nat.pos_of_ne_zero owned)
      simp only [Bool.and_eq_true, decide_eq_true_eq] at selected
      cases catalogued.same among member (selected.1.trans same.symm)
      exact .inr (.inr (by rw [selected.1, selected.2]))
    · rw [removed]
      exact .inl (List.mem_filter.mpr ⟨member, by simpa using same⟩)

/-- Where an event comes from: it was there under its number and owner, or it was just
created. -/
theorem event_origin (executed : Payknot.exec p choice op w = some (reply, w')) {row : EventRow}
    (member : row ∈ w'.events) :
    (∃ old ∈ w.events, old.id = row.id ∧ old.ownerEmail = row.ownerEmail) ∨
      (op = .sql (.insertEvent row.slug row.ownerEmail row.columns) ∧ row.id = Int64.ofNat w.nextEventId ∧
        w.nextEventId < 2 ^ 63 ∧ w'.nextEventId = w.nextEventId + 1) := by
  rcases exec_events executed with unchanged | ⟨slug, owner, columns, rfl, added, fits, next⟩ |
    ⟨id, owner, columns, rfl, updated⟩ | ⟨id, owner, rfl, _, removed⟩
  · rw [unchanged] at member
    exact .inl ⟨row, member, rfl, rfl⟩
  · rw [added] at member
    rcases List.mem_append.mp member with old | new
    · exact .inl ⟨row, old, rfl, rfl⟩
    · cases List.mem_singleton.mp new
      exact .inr ⟨rfl, rfl, fits, next⟩
  · rw [updated] at member
    obtain ⟨old, among, ⟨_, rfl⟩ | ⟨_, rfl⟩⟩ := mem_updateWhere member
    · exact .inl ⟨old, among, rfl, rfl⟩
    · exact .inl ⟨row, among, rfl, rfl⟩
  · rw [removed] at member
    exact .inl ⟨row, (List.mem_filter.mp member).1, rfl, rfl⟩

theorem Catalogued.exec (catalogued : Catalogued w)
    (executed : Payknot.exec p choice op w = some (reply, w')) : Catalogued w' := by
  constructor
  · rcases exec_events executed with unchanged | ⟨_, _, _, _, added, fits, _⟩ | ⟨_, _, _, _, updated⟩ |
      ⟨_, _, _, _, removed⟩
    · rw [unchanged]
      exact catalogued.distinct
    · rw [added, List.map_append, List.nodup_append]
      refine ⟨catalogued.distinct, by simp, ?_⟩
      intro id among other only same
      obtain ⟨row, member, rfl⟩ := List.mem_map.mp among
      simp only [List.map_cons, List.map_nil, List.mem_singleton] at only
      have old := catalogued.drawn row member
      rw [same, only, Int64.toInt_ofNat_of_lt fits] at old
      omega
    · have ids : w'.events.map EventRow.id = w.events.map EventRow.id := by
        rw [updated, updateWhere, List.map_map]
        apply List.map_congr_left
        intro row _
        simp only [Function.comp_apply]
        split <;> rfl
      rw [ids]
      exact catalogued.distinct
    · rw [removed]
      exact catalogued.distinct.sublist (List.filter_sublist.map _)
  · intro row member
    rcases event_origin executed member with ⟨old, among, same, _⟩ | ⟨_, number, fits, next⟩
    · have below := catalogued.drawn old among
      have grown := eventIds_grow executed
      rw [same] at below
      omega
    · rw [number, next, Int64.toInt_ofNat_of_lt fits]
      omega

end Catalogue

section Steps

/-- A step of the server leaves the core's tables and clock alone or is one of its
operations. -/
theorem exec_core {choice : Choice} {op : Op} {reply : Reply op} {w w' : World}
    (executed : exec e choice op w = some (reply, w')) :
    w'.core = w.core ∨ ∃ part answer, op = .core part ∧
      Payknot.exec e.platform ⟨choice.fault, choice.text.getD ""⟩ part w.core = some (answer, w'.core) := by
  cases op with
  | core part =>
      simp only [exec, Option.map_eq_some_iff] at executed
      obtain ⟨⟨answer, core⟩, ran, same⟩ := executed
      cases same
      exact .inr ⟨part, answer, rfl, ran⟩
  | query | fetchPage =>
      simp only [exec, Option.some.injEq] at executed
      first
        | split at executed <;> cases executed <;> exact .inl rfl
        | cases executed; exact .inl rfl
  | _ =>
      simp only [exec, Option.map_eq_some_iff] at executed
      obtain ⟨_, _, same⟩ := executed
      cases same
      exact .inl rfl

-- An event outside does nothing to the core's events.
theorem occur_events {event : WorldEvent} {w w' : World} (occurred : occur event w = some w') :
    w'.core.events = w.core.events ∧ w'.core.nextEventId = w.core.nextEventId := by
  simp only [occur, Option.map_eq_some_iff] at occurred
  obtain ⟨core, occurred, rfl⟩ := occurred
  cases event with
  | tick elapsed =>
      cases occurred
      exact ⟨rfl, rfl⟩
  | land landed =>
      simp only [Payknot.occur] at occurred
      split at occurred <;> cases occurred
      exact ⟨rfl, rfl⟩

/-- Everything a step can do to the events: nothing, or what one operation of the core
does that a request issues. -/
theorem step_events (stepped : (machine e).next cfg label = some after) :
    (after.world.core.events = cfg.world.core.events ∧
      after.world.core.nextEventId = cfg.world.core.nextEventId) ∨
    ∃ index choice thread part answer, label = .step index choice ∧ cfg.threads[index]? = some thread ∧
      thread.Issues (.core part) ∧ Payknot.exec e.platform ⟨choice.fault, choice.text.getD ""⟩ part
        cfg.world.core = some (answer, after.world.core) := by
  rcases next_cases stepped with ⟨_, _, rfl⟩ | ⟨event, world, _, occurred, rfl⟩ |
    ⟨index, choice, thread, op, rest, reply, world, rfl, at_index, program, executed, rfl⟩
  · exact .inl ⟨rfl, rfl⟩
  · exact .inl (occur_events occurred)
  · rcases exec_core executed with same | ⟨part, answer, rfl, ran⟩
    · rw [same]
      exact .inl ⟨rfl, rfl⟩
    · exact .inr ⟨index, choice, thread, part, answer, rfl, at_index, ⟨rest, program⟩, ran⟩

theorem Catalogued.next (catalogued : Catalogued cfg.world.core)
    (stepped : (machine e).next cfg label = some after) : Catalogued after.world.core := by
  rcases step_events stepped with ⟨events, ids⟩ | ⟨_, _, _, _, _, _, _, _, executed⟩
  · constructor
    · rw [events]
      exact catalogued.distinct
    · rw [events, ids]
      exact catalogued.drawn
  · exact catalogued.exec executed

end Steps

section Owners

/-- The event's number is given out, and no event under it has another owner. -/
def Owned (row : EventRow) (w : Payknot.World) : Prop :=
  row.id.toInt < w.nextEventId ∧ ∀ other ∈ w.events, other.id = row.id → other.ownerEmail = row.ownerEmail

theorem Catalogued.owned {w : Payknot.World} (catalogued : Catalogued w) {row : EventRow} (member : row ∈ w.events) :
    Owned row w := by
  refine ⟨catalogued.drawn row member, fun other among same => ?_⟩
  rw [catalogued.same among member same]

theorem Owned.next {row : EventRow} (owned : Owned row cfg.world.core)
    (stepped : (machine e).next cfg label = some after) : Owned row after.world.core := by
  rcases step_events stepped with ⟨events, ids⟩ | ⟨_, _, _, _, _, _, _, _, executed⟩
  · unfold Owned
    rw [events, ids]
    exact owned
  · have grown := eventIds_grow executed
    refine ⟨by have := owned.1; omega, fun other among same => ?_⟩
    rcases event_origin executed among with ⟨old, member, number, owner⟩ | ⟨_, number, fits, _⟩
    · rw [← owner]
      exact owned.2 old member (number.trans same)
    · -- A new number is above all that were given out.
      have given := owned.1
      rw [← same, number, Int64.toInt_ofNat_of_lt fits] at given
      omega

/-- The step is taken by a request that asks so, authenticated as this caller. -/
def ByCaller (e : Environment) (cfg : Service) (label : ServiceLabel) (asks : Request → Prop)
    (email : String) : Prop :=
  ∃ index choice thread claims, label = .step index choice ∧ cfg.threads[index]? = some thread ∧
    asks thread.request ∧ Authenticated e thread.request thread.log claims ∧ claims.email = email

/-- PUT or DELETE `/api/events/{id}`. -/
def Request.Edits (request : Request) (id : Int64) : Prop :=
  request.Asks "PUT" (.event id) ∨ request.Asks "DELETE" (.event id)

/-- POST `/api/events`. -/
def Request.Creates (request : Request) : Prop := ∃ c body, request = .events c body ∧ c.method = "POST"

-- An event is changed or lost in a request of its owner only.
theorem edited_by_owner (catalogued : Catalogued cfg.world.core)
    (disciplined : Disciplined (Issues e) (Ends e) cfg) (stepped : (machine e).next cfg label = some after)
    {row : EventRow} (member : row ∈ cfg.world.core.events) (edited : row ∉ after.world.core.events) :
    ByCaller e cfg label (·.Edits row.id) row.ownerEmail := by
  rcases step_events stepped with ⟨events, _⟩ | ⟨index, choice, thread, part, answer, step, at_index, issues, executed⟩
  · rw [events] at edited
    exact absurd member edited
  · have warranted := disciplined.issues (List.mem_of_getElem? at_index) issues
    rcases event_fate catalogued executed member with kept | ⟨columns, rfl⟩ | rfl
    · exact absurd kept edited
    · obtain ⟨asks, claims, authenticated, email⟩ := warranted
      exact ⟨index, choice, thread, claims, step, at_index, .inl asks, authenticated, email⟩
    · obtain ⟨asks, claims, authenticated, email⟩ := warranted
      exact ⟨index, choice, thread, claims, step, at_index, .inr asks, authenticated, email⟩

theorem created_by_owner (disciplined : Disciplined (Issues e) (Ends e) cfg)
    (stepped : (machine e).next cfg label = some after) {row : EventRow}
    (member : row ∈ after.world.core.events) (new : ∀ old ∈ cfg.world.core.events, old.id ≠ row.id) :
    ByCaller e cfg label Request.Creates row.ownerEmail := by
  rcases step_events stepped with ⟨events, _⟩ | ⟨index, choice, thread, part, answer, step, at_index, issues, executed⟩
  · rw [events] at member
    exact absurd rfl (new row member)
  · rcases event_origin executed member with ⟨old, among, same, _⟩ | ⟨rfl, _⟩
    · exact absurd same (new old among)
    · obtain ⟨asks, claims, authenticated, email⟩ := disciplined.issues (List.mem_of_getElem? at_index) issues
      exact ⟨index, choice, thread, claims, step, at_index, asks, authenticated, email⟩

end Owners

section Listings

def Was (e : Environment) (init cfg : Service) (fact : Payknot.World → Prop) : Prop :=
  ∃ earlier, (machine e).Reaches anyStep init earlier ∧ (machine e).Reaches anyStep earlier cfg ∧
    fact earlier.world.core

theorem Was.next {fact : Payknot.World → Prop} (was : Was e init cfg fact)
    (stepped : (machine e).next cfg label = some after) : Was e init after fact := by
  obtain ⟨earlier, before, since, holds⟩ := was
  exact ⟨earlier, before, since.tail label trivial stepped, holds⟩

/-- A listing shows events of the owner asked for, and checkouts of an event of theirs. -/
def Listed (e : Environment) (init cfg : Service) : Entry Reply → Prop
  | ⟨.query (.listEvents ownerEmail), .ok rows⟩ =>
      ∀ row ∈ rows, row.ownerEmail = ownerEmail ∧ Was e init cfg fun w => row ∈ w.events
  | ⟨.query (.listCheckouts eventID ownerEmail), .ok rows⟩ => ∀ row ∈ rows, row.eventId = eventID ∧
      Was e init cfg fun w => row ∈ w.checkouts ∧ ∃ event ∈ w.events, event.id = eventID ∧ event.ownerEmail = ownerEmail
  | _ => True

theorem mem_delivered {Row : Type} {choice : Choice} {time : Row → Time} {rows : List Row} {row : Row}
    (member : row ∈ choice.delivered (latestFirst time rows)) : row ∈ rows := by
  unfold Choice.delivered at member
  split at member
  · exact List.mem_mergeSort.mp member
  · exact List.mem_mergeSort.mp (List.mem_of_mem_take member)

theorem listed_fresh {choice : Choice} {op : Op} {reply : Reply op}
    (reached : (machine e).Reaches anyStep init cfg) (stepped : (machine e).next cfg label = some after)
    (executed : exec e choice op cfg.world = some (reply, after.world)) : Listed e init after ⟨op, reply⟩ := by
  have now (fact : Payknot.World → Prop) (holds : fact cfg.world.core) : Was e init after fact :=
    ⟨cfg, reached, (Reaches.refl cfg).tail label trivial stepped, holds⟩
  cases op with
  | query query =>
      simp only [exec, Option.some.injEq] at executed
      split at executed
      · obtain ⟨rfl, _⟩ := Prod.mk.inj executed
        cases query <;> trivial
      · cases query with
        | listEvents ownerEmail =>
            obtain ⟨rfl, _⟩ := Prod.mk.inj executed
            intro row member
            have owned := List.mem_filter.mp (mem_delivered member)
            exact ⟨by simpa using owned.2, now (row ∈ ·.events) owned.1⟩
        | listCheckouts eventID ownerEmail =>
            obtain ⟨rfl, _⟩ := Prod.mk.inj executed
            intro row member
            have shown : row ∈ latestFirst (·.createdAt) (ownedCheckouts eventID ownerEmail cfg.world.core) := by
              unfold Choice.delivered at member
              split at member
              · exact List.mem_of_mem_take member
              · exact List.mem_of_mem_take (List.mem_of_mem_take member)
            obtain ⟨stored, joined⟩ := List.mem_filter.mp (List.mem_mergeSort.mp shown)
            simp only [Bool.and_eq_true, decide_eq_true_eq, List.any_eq_true] at joined
            obtain ⟨of_event, event, among, same⟩ := joined
            obtain ⟨present, owner⟩ := List.mem_filter.mp among
            exact ⟨of_event, now (fun w => row ∈ w.checkouts ∧ ∃ event ∈ w.events, event.id = eventID ∧
              event.ownerEmail = ownerEmail) ⟨stored, event, present, same, by simpa using owner⟩⟩
        | _ => trivial
  | _ => trivial

theorem listed_reached {allowed : Service → ServiceLabel → Prop} (start : init.threads = [])
    (run : (machine e).Reaches allowed init cfg) :
    (machine e).Reaches anyStep init cfg ∧ Seen (Listed e init cfg) cfg := by
  induction run with
  | refl =>
      refine ⟨.refl _, fun thread member => ?_⟩
      rw [start] at member
      cases member
  | tail label run meets stepped ih =>
      obtain ⟨reached, seen⟩ := ih
      refine ⟨reached.tail label trivial stepped, seen_next seen stepped ?_ ?_⟩
      · rintro ⟨op, reply⟩ listed
        cases op with
        | query query =>
            cases query with
            | listEvents ownerEmail =>
                cases reply with
                | error fault => trivial
                | ok rows => exact fun row member => ⟨(listed row member).1, (listed row member).2.next stepped⟩
            | listCheckouts eventID ownerEmail =>
                cases reply with
                | error fault => trivial
                | ok rows => exact fun row member => ⟨(listed row member).1, (listed row member).2.next stepped⟩
            | _ => trivial
        | _ => trivial
      · intro thread _ choice op reply _ executed
        exact listed_fresh reached stepped executed

end Listings

/-- Any interleaving of requests to all endpoints. The owner of an event never changes; an
event is changed or removed in a PUT or DELETE of its owner only, and created in a POST of
its owner only; and a listing shows events of the caller, and checkouts of such events. -/
theorem events_of_owner_only (start : init.threads = []) (catalogued : Catalogued init.world.core)
    (run : (machine e).Reaches anyStep init cfg) :
    (∀ last, (machine e).Reaches anyStep cfg last → ∀ row ∈ cfg.world.core.events,
      ∀ row' ∈ last.world.core.events, row'.id = row.id → row'.ownerEmail = row.ownerEmail) ∧
    (∀ label after, (machine e).next cfg label = some after →
      (∀ row ∈ cfg.world.core.events, row ∉ after.world.core.events →
        ByCaller e cfg label (·.Edits row.id) row.ownerEmail) ∧
      (∀ row ∈ after.world.core.events, (∀ old ∈ cfg.world.core.events, old.id ≠ row.id) →
        ByCaller e cfg label Request.Creates row.ownerEmail)) ∧
    (∀ thread ∈ cfg.threads, ∀ events, thread.program = .ret (.events events) →
      ∃ claims, Authenticated e thread.request thread.log claims ∧ ∀ event ∈ events,
        ∃ row, event = eventSummary e row ∧ row.ownerEmail = claims.email ∧
          Was e init cfg fun w => row ∈ w.events) ∧
    (∀ thread ∈ cfg.threads, ∀ checkouts, thread.program = .ret (.checkouts checkouts) →
      ∃ claims, Authenticated e thread.request thread.log claims ∧ ∀ checkout ∈ checkouts,
        ∃ row, checkout = eventCheckoutRow row ∧ Was e init cfg fun w => row ∈ w.checkouts ∧
          ∃ event ∈ w.events, event.id = row.eventId ∧ event.ownerEmail = claims.email) := by
  have catalogued : Catalogued cfg.world.core :=
    run.invariant (fun cfg => Catalogued cfg.world.core) catalogued fun _ _ _ held _ stepped => held.next stepped
  have disciplined : Disciplined (Issues e) (Ends e) cfg := by
    apply run.disciplined along_handler
    intro thread member
    rw [start] at member
    cases member
  have listed := (listed_reached start run).2
  refine ⟨?_, fun label after stepped => ⟨?_, ?_⟩, ?_, ?_⟩
  · intro last since row member row' member' same
    have owned : Owned row last.world.core := since.invariant (fun cfg => Owned row cfg.world.core)
      (catalogued.owned member) fun _ _ _ held _ stepped => held.next stepped
    exact owned.2 row' member' same
  · exact fun row => edited_by_owner catalogued disciplined stepped
  · exact fun row => created_by_owner disciplined stepped
  · intro thread member events ended
    obtain ⟨claims, rows, authenticated, saw, rfl⟩ := disciplined.ends member ended
    refine ⟨claims, authenticated, fun event among => ?_⟩
    obtain ⟨row, shown, rfl⟩ := List.mem_map.mp among
    obtain ⟨owner, was⟩ := listed thread member _ saw row shown
    exact ⟨row, rfl, owner, was⟩
  · intro thread member checkouts ended
    obtain ⟨claims, eventID, rows, authenticated, saw, rfl⟩ := disciplined.ends member ended
    refine ⟨claims, authenticated, fun checkout among => ?_⟩
    obtain ⟨row, shown, rfl⟩ := List.mem_map.mp among
    obtain ⟨rfl, was⟩ := listed thread member _ saw row shown
    exact ⟨row, rfl, was⟩

section Deployment

def aliceToken : String := "pkt_pat_5c1e9a7b3d2f4860c8e1b5a79d3f2e4c6a8b0d1f3e5c7a9b"

/-- SHA-256 of `aliceToken`. -/
def tokenDigest : Bytes :=
  [167, 249, 158, 0, 159, 138, 210, 5, 103, 12, 61, 56, 229, 95, 231, 114, 98, 192, 254, 166, 31, 69, 145,
    107, 57, 112, 60, 13, 176, 146, 178, 152]

def tokenHash : String := "a7f99e009f8ad205670c3d38e55fe77262c0fea61f45916b39703c0db092b298"

/-- The four parts as their own examples have them, with the digest of one token. -/
def environment : Environment where
  platform := Mainnet.platform
  keys := AgentKeys.Hosts.environment ""
  accounts := { Accounts.environment with sha256 := Equiv.swap aliceToken.toUTF8.data.toList tokenDigest }
  agents := AgentRuntime.Agents.environment
  formatAmount n := toString n
  jsonbContains _ _ := false
  urlHost _ := none
  parseLumaHTML _ := ⟨"", "", "", "", "", "", "", ""⟩

def byAlice (method path : String) : Credentials :=
  ⟨none, "Bearer " ++ aliceToken, "", ⟨method, path, "", "", none⟩⟩

def events : List EventRow :=
  [Mainnet.meetup, ⟨2, "reading", Accounts.aliceAddress, "active", Mainnet.columns, 63889500000 * second⟩]

/-- Two events and one host with a token that has an hour to live, in 2025. -/
def stored (checkouts : List CheckoutRow) : World where
  core :=
    { events := events, nextEventId := 3, invoices := [], checkouts := checkouts
      nextCheckoutId := checkouts.length + 1, sessions := [], attempts := [], records := [], cache := []
      chain := [], now := 63889596800 * second, minted := [] }
  keys := { rows := [], cache := ⟨none, 0⟩, now := 0 }
  accounts :=
    { users := [⟨1, "Alice", Accounts.aliceAddress, none, .google, true, none, none⟩], nextUserID := 2
      sessions := []
      tokens := [
        { id := "6f1c2a34-9d5e-4b7f-8a01-1c2d3e4f5a6b", userID := 1, tokenName := "runtime"
          tokenPrefix := "pkt_pat_5c1e9a7b3d...", tokenHash := tokenHash, scope := "agent:runtime"
          createdAt := 63889500000 * second, lastUsedAt := none
          expiresAt := some (63889600000 * second), revokedAt := none }]
      now := 0, minted := ["6f1c2a34-9d5e-4b7f-8a01-1c2d3e4f5a6b"], drawn := [] }
  agents :=
    { nonces := [], sessions := [], policies := [], intents := [], now := 0, minted := [] }
  limiter := { counters := [], now := 0 }

def opening : Service := ⟨stored [], []⟩

theorem opening_catalogued : Catalogued opening.world.core := ⟨by decide, by decide⟩

def sound : Choice := ⟨none, none, none, .unavailable, .unreachable⟩

def steps (index count : Nat) : List ServiceLabel := List.replicate count (.step index sound)

def showsEvents (thread : ServiceThread) : Bool :=
  match thread.program with
  | .ret (.events events) => !events.isEmpty
  | _ => false

/-- Alice is shown events, and by the general result they are hers. -/
theorem events_of_owner_only_alice : ∃ (cfg : Service) (thread : ServiceThread) (events : List EventSummary),
    thread ∈ cfg.threads ∧ thread.program = .ret (.events events) ∧ events ≠ [] ∧
    ∃ claims, Authenticated environment thread.request thread.log claims ∧ ∀ event ∈ events,
      ∃ row, event = eventSummary environment row ∧ row.ownerEmail = claims.email ∧
        Was environment opening cfg fun w => row ∈ w.events := by
  obtain ⟨cfg, run, done⟩ := run_meets (machine environment) (fun _ _ => true)
    (.arrive (.events (byAlice "GET" "/api/events") none) :: steps 0 4) opening
    (fun cfg => cfg.threads.any showsEvents) (by decide +kernel)
  obtain ⟨thread, member, shown⟩ := List.any_eq_true.mp done
  unfold showsEvents at shown
  split at shown
  · next events ended =>
    refine ⟨cfg, thread, events, member, ended, by simpa using shown, ?_⟩
    exact (events_of_owner_only rfl opening_catalogued run.any).2.2.1 thread member events ended
  · cases shown

end Deployment
end Payknot.Server
