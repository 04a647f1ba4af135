import Payknot.History

/-! Where the stores have their contents from. Every cached invoice and every session
row was set up by exactly one request, which drew its reference and read its event
once, and every reply a request acts on is one the stores or the chain gave. -/
namespace Payknot
open GoText Interleaving Machine

variable {p : Platform} {init cfg after : Service} {label : ServiceLabel}

/-- `thread` drew the reference and read this version of the event row. -/
structure Opened (thread : ServiceThread) (reference : String) (event : EventRow) : Prop where
  opens : thread.request.opensSession = true
  drew : thread.log.Saw .newUUID reference
  read : EventRead thread.log event

def SetUp (cfg : Service) (reference : String) (event : EventRow) : Prop :=
  ∃ thread ∈ cfg.threads, Opened thread reference event

/-- A cached invoice with the terms of the event its session was set up for. -/
def CachedTerms (p : Platform) (cfg : Service) (key : String) (hash : InvoiceHash) : Prop :=
  ∃ reference event walletAddress paymentMethod data, key = redisKey reference ∧
    SetUp cfg reference event ∧ hash = invoiceHash p event walletAddress paymentMethod data

structure SessionTerms (session : SessionRow) (event : EventRow) : Prop where
  eventId : session.eventId = event.id
  amount : session.amountAtomic = event.columns.amountUSDC
  merchant : session.merchantWallet = event.columns.merchantWallet

/-- This version of the event row was in the table at some time of the run. -/
def HadEvent (p : Platform) (init cfg : Service) (event : EventRow) : Prop :=
  ∃ earlier, (machine p).Reaches anyStep init earlier ∧
    (machine p).Reaches anyStep earlier cfg ∧ event ∈ earlier.world.events

/-- What a reply says is so: the chain, the stores or the random source gave it. -/
def Truthful (p : Platform) (init cfg : Service) : Entry Reply → Prop
  | ⟨.rpc (.getTransaction _ signature), .ok result⟩ =>
      ∃ landed ∈ cfg.world.chain, landed.signature = signature ∧ landed.result = result
  | ⟨.redis (.hGetAll key), .ok (some hash)⟩ => CachedTerms p cfg key hash
  | ⟨.sql (.selectSession _), .ok (some session)⟩ =>
      ∃ event, SetUp cfg session.reference event ∧ SessionTerms session event
  | ⟨.sql (.selectActiveEventBySlug _), .ok (some event)⟩ => HadEvent p init cfg event
  | ⟨.sql (.selectActiveEventById _), .ok (some event)⟩ => HadEvent p init cfg event
  | ⟨.sql .selectRecoverable, .ok rows⟩ => rows = []
  | ⟨.newUUID, uuid⟩ => uuid ∈ cfg.world.minted ∧ p.uuidText uuid = some uuid
  | _ => True

def SoleDrawers (cfg : Service) : Prop :=
  ∀ (i j : Nat) (first second : ServiceThread) (uuid : String), cfg.threads[i]? = some first →
    cfg.threads[j]? = some second → first.log.Saw .newUUID uuid → second.log.Saw .newUUID uuid →
    i = j

def SingleReads (cfg : Service) : Prop :=
  ∀ thread ∈ cfg.threads, ∀ event other, EventRead thread.log event →
    EventRead thread.log other → event = other

structure Provenance (p : Platform) (init cfg : Service) : Prop where
  run : (machine p).Reaches anyStep init cfg
  careful : Warranted p cfg
  truthful : Seen (Truthful p init cfg) cfg
  sole : SoleDrawers cfg
  single : SingleReads cfg
  cached : ∀ entry ∈ cfg.world.cache, CachedTerms p cfg entry.key entry.hash
  sessions : ∀ session ∈ cfg.world.sessions,
    ∃ event, SetUp cfg session.reference event ∧ SessionTerms session event
  settled : ∀ row ∈ cfg.world.checkouts, row.status = .paid

section Monotone
variable (stepped : (machine p).next cfg label = some after)
include stepped

theorem next_thread {thread : ServiceThread} (member : thread ∈ cfg.threads) :
    ∃ current ∈ after.threads, current.request = thread.request ∧ thread.log <:+ current.log := by
  obtain ⟨index, found⟩ := List.mem_iff_getElem?.mp member
  obtain ⟨current, at_index, same, grown⟩ := thread_kept stepped found
  exact ⟨current, List.mem_of_getElem? at_index, same, grown⟩

theorem SetUp.next {reference : String} {event : EventRow} (up : SetUp cfg reference event) :
    SetUp after reference event := by
  obtain ⟨thread, member, opened⟩ := up
  obtain ⟨current, present, same, grown⟩ := next_thread stepped member
  refine ⟨current, present, ?_, opened.drew.mono grown, opened.read.mono grown⟩
  rw [same]
  exact opened.opens

theorem CachedTerms.next {key : String} {hash : InvoiceHash} (terms : CachedTerms p cfg key hash) :
    CachedTerms p after key hash := by
  obtain ⟨reference, event, walletAddress, paymentMethod, data, keyed, up, same⟩ := terms
  exact ⟨reference, event, walletAddress, paymentMethod, data, keyed, up.next stepped, same⟩

theorem HadEvent.next {event : EventRow} (had : HadEvent p init cfg event) :
    HadEvent p init after event := by
  obtain ⟨earlier, before, since, member⟩ := had
  exact ⟨earlier, before, since.tail label trivial stepped, member⟩

-- Landed transactions and drawn identifiers stay.
theorem next_grows : cfg.world.chain ⊆ after.world.chain ∧ cfg.world.minted ⊆ after.world.minted := by
  rcases next_cases stepped with ⟨request, rfl, rfl⟩ | ⟨event, world, rfl, occurred, rfl⟩ |
    ⟨index, choice, thread, op, rest, reply, world, rfl, _, _, executed, rfl⟩
  · exact ⟨List.Subset.refl _, List.Subset.refl _⟩
  · exact ⟨occur_chain occurred, (occur_frame .minted occurred (by decide)).symm ▸ List.Subset.refl _⟩
  · constructor
    · change cfg.world.chain ⊆ world.chain
      rw [exec_chain executed]
      exact List.Subset.refl _
    · change cfg.world.minted ⊆ world.minted
      rcases exec_minted executed with same | ⟨_, _, _, added⟩
      · rw [same]
        exact List.Subset.refl _
      · rw [added]
        exact List.subset_cons_self _ _

theorem Truthful.next {entry : Entry Reply} (told : Truthful p init cfg entry) :
    Truthful p init after entry := by
  unfold Truthful at told ⊢
  split at told
  · obtain ⟨landed, member, same⟩ := told
    exact ⟨landed, (next_grows stepped).1 member, same⟩
  · exact told.next stepped
  · obtain ⟨event, up, terms⟩ := told
    exact ⟨event, up.next stepped, terms⟩
  · exact told.next stepped
  · exact told.next stepped
  · exact told
  · exact ⟨(next_grows stepped).2 told.1, told.2⟩
  · trivial

end Monotone

section Step
variable (held : Provenance p init cfg) (stepped : (machine p).next cfg label = some after)
include held

theorem fresh_truthful {choice : Choice} {op : Op} {reply : Reply op}
    (stepped : (machine p).next cfg label = some after)
    (executed : exec p choice op cfg.world = some (reply, after.world)) :
    Truthful p init after ⟨op, reply⟩ := by
  unfold Truthful
  split
  · next signature result heard =>
    cases heard
    obtain ⟨same, ran⟩ := exec_rpc executed
    have answered := ran result rfl
    simp only [Rpc.run] at answered
    split at answered
    · cases answered
    · next landed found =>
      cases answered
      refine ⟨landed, ?_, ?_, rfl⟩
      · rw [exec_chain executed]
        exact List.mem_of_find?_eq_some found
      · simpa using List.find?_some found
  · next key hash heard =>
    cases heard
    rcases exec_redis executed with ⟨_, wrong, _⟩ | ⟨value, same, ran⟩
    · cases wrong
    · cases same
      simp only [Redis.run, Except.ok.injEq, Prod.mk.injEq, Option.map_eq_some_iff] at ran
      obtain ⟨⟨entry, found, rfl⟩, _⟩ := ran
      have keyed : entry.key = key := by simpa using List.find?_some found
      have terms := held.cached entry (List.mem_of_find?_eq_some found)
      rw [keyed] at terms
      exact terms.next stepped
  · next id session heard =>
    cases heard
    rcases exec_sql executed with ⟨_, wrong, _⟩ | ⟨value, same, ran⟩
    · cases wrong
    · cases same
      obtain ⟨canonical, _, ran⟩ := withSessionId_ok ran
      simp only [Except.ok.injEq, Prod.mk.injEq] at ran
      obtain ⟨event, up, terms⟩ := held.sessions session (List.mem_of_find?_eq_some ran.1)
      exact ⟨event, up.next stepped, terms⟩
  · next slug event heard =>
    cases heard
    rcases exec_sql executed with ⟨_, wrong, _⟩ | ⟨value, same, ran⟩
    · cases wrong
    · cases same
      simp only [Sql.run, Except.ok.injEq, Prod.mk.injEq] at ran
      exact ⟨cfg, held.run, (Reaches.refl cfg).tail label trivial stepped,
        List.mem_of_find?_eq_some ran.1⟩
  · next id event heard =>
    cases heard
    rcases exec_sql executed with ⟨_, wrong, _⟩ | ⟨value, same, ran⟩
    · cases wrong
    · cases same
      simp only [Sql.run, Except.ok.injEq, Prod.mk.injEq] at ran
      exact ⟨cfg, held.run, (Reaches.refl cfg).tail label trivial stepped,
        List.mem_of_find?_eq_some ran.1⟩
  · next rows heard =>
    cases heard
    rcases exec_sql executed with ⟨_, wrong, _⟩ | ⟨value, same, ran⟩
    · cases wrong
    · cases same
      simp only [Sql.run, Except.ok.injEq, Prod.mk.injEq] at ran
      have none_left : cfg.world.checkouts.filterMap (recoverable cfg.world) = [] := by
        rw [List.filterMap_eq_nil_iff]
        intro row member
        simp [recoverable, held.settled row member]
      rw [← ran.1, none_left]
      simp
  · next uuid heard =>
    cases heard
    obtain ⟨_, canonical, _, grown⟩ := exec_newUUID executed
    rw [grown]
    exact ⟨List.mem_cons_self, canonical⟩
  · trivial

theorem Provenance.truthful_next (stepped : (machine p).next cfg label = some after) :
    Seen (Truthful p init after) after :=
  seen_next held.truthful stepped (fun _ told => told.next stepped)
    fun _ _ _ _ _ _ executed => fresh_truthful held stepped executed

theorem Provenance.sole_next (stepped : (machine p).next cfg label = some after) :
    SoleDrawers after := by
  intro i j first second uuid at_first at_second drew_first drew_second
  have minted {index : Nat} {thread : ServiceThread} (found : cfg.threads[index]? = some thread)
      (drew : thread.log.Saw .newUUID uuid) : uuid ∈ cfg.world.minted :=
    (held.truthful thread (List.mem_of_getElem? found) _ drew).1
  rcases saw_after stepped at_first drew_first with ⟨_, old_first, _, before⟩ |
    ⟨choice, _, _, here, _, _, executed, _⟩
  · rcases saw_after stepped at_second drew_second with ⟨_, old_second, _, also⟩ |
      ⟨_, _, _, _, _, _, executed, _⟩
    · exact held.sole i j _ _ uuid old_first old_second before also
    · exact absurd (minted old_first before) (exec_newUUID executed).1
  · rcases saw_after stepped at_second drew_second with ⟨_, old_second, _, also⟩ |
      ⟨_, _, _, there, _, _, _, _⟩
    · exact absurd (minted old_second also) (exec_newUUID executed).1
    · rw [here] at there
      cases there
      rfl

theorem Provenance.single_next (stepped : (machine p).next cfg label = some after) :
    SingleReads after := by
  intro current member event other read_event read_other
  obtain ⟨index, found⟩ := List.mem_iff_getElem?.mp member
  rcases thread_after stepped found with old | ⟨request, _, rfl, _⟩ |
    ⟨choice, thread, op, rest, reply, _, at_index, program, _, rfl⟩
  · exact held.single current (List.mem_of_getElem? old) event other read_event read_other
  · exact absurd read_event (eventRead_nil event)
  · have present := List.mem_of_getElem? at_index
    have issues := held.careful.issues present ⟨rest, program⟩
    -- An entry that reads an event follows a history without one.
    have unread {row : EventRow} (reads : readEvent ⟨op, reply⟩ = some row) :
        ∀ earlier, ¬ EventRead thread.log earlier := by
      unfold readEvent at reads
      split at reads
      · next heard =>
        cases heard
        exact issues
      · next heard =>
        cases heard
        exact issues
      · cases reads
    obtain ⟨entry, among, reads⟩ := read_event
    obtain ⟨entry', among', reads'⟩ := read_other
    rcases List.mem_cons.mp among with rfl | earlier
    · rcases List.mem_cons.mp among' with rfl | earlier'
      · rw [reads] at reads'
        exact Option.some.inj reads'
      · exact absurd ⟨entry', earlier', reads'⟩ (unread reads other)
    · rcases List.mem_cons.mp among' with rfl | earlier'
      · exact absurd ⟨entry, earlier, reads⟩ (unread reads' event)
      · exact held.single thread present event other ⟨entry, earlier, reads⟩
          ⟨entry', earlier', reads'⟩

theorem Provenance.cached_next (stepped : (machine p).next cfg label = some after) :
    ∀ entry ∈ after.world.cache, CachedTerms p after entry.key entry.hash := by
  have kept {entry : CachedInvoice} (member : entry ∈ cfg.world.cache) :
      CachedTerms p after entry.key entry.hash :=
    (held.cached entry member).next stepped
  intro entry member
  rcases next_cases stepped with ⟨request, rfl, rfl⟩ | ⟨event, world, rfl, occurred, rfl⟩ |
    ⟨index, choice, thread, op, rest, reply, world, rfl, at_index, program, executed, same⟩
  · exact kept member
  · exact kept (occur_cache occurred member)
  · rw [same] at member
    rcases exec_cache executed with unchanged | ⟨key, hash, rfl, stored⟩ | ⟨key, ttl, rfl, dated⟩ |
      ⟨key, rfl, removed⟩
    · rw [unchanged] at member
      exact kept member
    · rw [stored] at member
      rcases List.mem_cons.mp member with rfl | older
      · obtain ⟨opens, event, reference, walletAddress, paymentMethod, data, read, drew, keyed,
          hashed⟩ := held.careful.issues (List.mem_of_getElem? at_index) ⟨rest, program⟩
        have up : SetUp cfg reference event :=
          ⟨thread, List.mem_of_getElem? at_index, opens, drew, read⟩
        exact ⟨reference, event, walletAddress, paymentMethod, data, keyed, up.next stepped, hashed⟩
      · exact kept (List.mem_filter.mp older).1
    · rw [dated] at member
      obtain ⟨old, among, ⟨_, rfl⟩ | ⟨_, rfl⟩⟩ := mem_updateWhere member
      · have terms := kept among
        exact terms
      · exact kept among
    · rw [removed] at member
      exact kept (List.mem_filter.mp member).1

theorem Provenance.sessions_next (stepped : (machine p).next cfg label = some after) :
    ∀ session ∈ after.world.sessions,
      ∃ event, SetUp after session.reference event ∧ SessionTerms session event := by
  have kept {session : SessionRow} (member : session ∈ cfg.world.sessions) :
      ∃ event, SetUp after session.reference event ∧ SessionTerms session event := by
    obtain ⟨event, up, terms⟩ := held.sessions session member
    exact ⟨event, up.next stepped, terms⟩
  intro session member
  rcases next_cases stepped with ⟨request, rfl, rfl⟩ | ⟨event, world, rfl, occurred, rfl⟩ |
    ⟨index, choice, thread, op, rest, reply, world, rfl, at_index, program, executed, same⟩
  · exact kept member
  · have unchanged := occur_frame .sessions occurred (by decide)
    rw [unchanged] at member
    exact kept member
  · rw [same] at member
    have present := List.mem_of_getElem? at_index
    rcases exec_sessions executed with unchanged | ⟨new, id, reference, data, rfl, _, cast, _, _, added⟩ |
      ⟨id, canonical, state, rfl, _, updated⟩ | ⟨id, canonical, signature, rfl, _, updated⟩ |
      ⟨id, ownerEmail, rfl, removed⟩
    · rw [unchanged] at member
      exact kept member
    · rw [added] at member
      rcases List.mem_append.mp member with older | newest
      · exact kept older
      · obtain ⟨opens, event, read, drew, eventId, amount, merchant, _⟩ :=
          held.careful.issues present ⟨rest, program⟩
        rw [List.mem_singleton] at newest
        -- A drawn reference is already in the form the column gives back.
        have canonical := (held.truthful thread present _ drew).2
        rw [canonical, Option.some.injEq] at cast
        subst newest cast
        have up : SetUp cfg new.reference event := ⟨thread, present, opens, drew, read⟩
        exact ⟨event, up.next stepped, eventId, amount, merchant⟩
    · rw [updated] at member
      obtain ⟨old, among, ⟨_, rfl⟩ | ⟨_, rfl⟩⟩ := mem_updateWhere member
      · obtain ⟨event, up, terms⟩ := kept among
        exact ⟨event, up, terms.eventId, terms.amount, terms.merchant⟩
      · exact kept among
    · rw [updated] at member
      obtain ⟨old, among, ⟨_, rfl⟩ | ⟨_, rfl⟩⟩ := mem_updateWhere member
      · obtain ⟨event, up, terms⟩ := kept among
        exact ⟨event, up, terms.eventId, terms.amount, terms.merchant⟩
      · exact kept among
    · rw [removed] at member
      exact kept (List.mem_filter.mp member).1

theorem Provenance.nothing_recoverable {thread : ServiceThread} (present : thread ∈ cfg.threads)
    {rows : List CheckoutRecoveryRow} {row : CheckoutRecoveryRow}
    (read : thread.log.Saw (.sql .selectRecoverable) (.ok rows)) : row ∉ rows := by
  have empty : rows = [] := held.truthful thread present _ read
  simp [empty]

theorem Provenance.settled_next (stepped : (machine p).next cfg label = some after) :
    ∀ row ∈ after.world.checkouts, row.status = .paid := by
  intro row member
  rcases next_cases stepped with ⟨request, rfl, rfl⟩ | ⟨event, world, rfl, occurred, rfl⟩ |
    ⟨index, choice, thread, op, rest, reply, world, rfl, at_index, program, executed, same⟩
  · exact held.settled row member
  · have unchanged := occur_frame .checkouts occurred (by decide)
    rw [unchanged] at member
    exact held.settled row member
  · rw [same] at member
    have present := List.mem_of_getElem? at_index
    rcases exec_checkouts executed with unchanged | ⟨checkout, data, rfl, _, _, written⟩ |
      ⟨checkout, data, issued, _, _, added⟩ | ⟨reference, rfl, removed⟩ |
      ⟨id, signature, sender, rfl, marked⟩ | ⟨id, rfl, marked⟩ | ⟨id, ownerEmail, rfl, removed⟩
    · rw [unchanged] at member
      exact held.settled row member
    · rw [written] at member
      obtain ⟨old, among, ⟨_, rfl⟩ | ⟨_, rfl⟩⟩ := mem_updateWhere member
      · rfl
      · exact held.settled _ among
    · rw [added] at member
      rcases List.mem_append.mp member with older | newest
      · exact held.settled row older
      · rw [List.mem_singleton] at newest
        subst newest
        rfl
    · rw [removed] at member
      exact held.settled row (List.mem_filter.mp member).1
    · obtain ⟨_, rows, listed, read, among, _⟩ := held.careful.issues present ⟨rest, program⟩
      exact absurd among (held.nothing_recoverable present read)
    · obtain ⟨_, rows, listed, read, among, _⟩ := held.careful.issues present ⟨rest, program⟩
      exact absurd among (held.nothing_recoverable present read)
    · rw [removed] at member
      exact held.settled row (List.mem_filter.mp member).1

theorem Provenance.next (stepped : (machine p).next cfg label = some after) :
    Provenance p init after where
  run := held.run.tail label trivial stepped
  careful := warranted_next held.careful stepped
  truthful := held.truthful_next stepped
  sole := held.sole_next stepped
  single := held.single_next stepped
  cached := held.cached_next stepped
  sessions := held.sessions_next stepped
  settled := held.settled_next stepped

end Step

theorem Fresh.provenance (fresh : Fresh init) : Provenance p init init where
  run := .refl init
  careful := warranted_start fresh.threads
  truthful := by simp [Seen, fresh.threads]
  sole := by simp [SoleDrawers, fresh.threads]
  single := by simp [SingleReads, fresh.threads]
  cached := by simp [fresh.cache]
  sessions := by simp [fresh.sessions]
  settled := by simp [fresh.checkouts]

theorem provenance_reached (fresh : Fresh init) (run : (machine p).Reaches anyStep init cfg) :
    Provenance p init cfg :=
  run.invariant _ fresh.provenance fun _ _ _ held _ stepped => held.next stepped

end Payknot
