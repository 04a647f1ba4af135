import Payknot.CancelledInvoices
import Payknot.PaidAnswers
import Payknot.AbandonedSessions
import Payknot.Routines
import Mathlib.Data.List.Nodup

/-! The session ledger and the checkout ledger. The v1 finalisers write both, one after the
other; the legacy ones serve the same references and write the checkout alone. -/
namespace Payknot
open GoText Interleaving Machine

structure Agrees (w : World) (row : SessionRow) : Prop where
  paid : row.state = .paid ↔ PaidFor w row.reference
  signature : ∀ checkout ∈ w.checkouts, checkout.reference = row.reference → checkout.status = .paid →
    checkout.signature = row.signature

/-- Every session agrees with its checkout, and no identifier stands for two things. -/
structure InStep (w : World) : Prop where
  agrees : ∀ row ∈ w.sessions, Agrees w row
  ids : (w.sessions.map (·.id)).Nodup
  references : (w.sessions.map (·.reference)).Nodup
  sessions : ∀ row ∈ w.sessions, row.reference ∈ w.minted
  checkouts : CheckoutsMinted w
  paid : ∀ checkout ∈ w.checkouts, checkout.status = .paid
  hashes : HashesMinted w

/-- No event is deleted, and no legacy finaliser writes the checkout of a session. -/
def leavesSessions (request : Request) (w : World) : Op → Bool
  | .sql (.upsertPaidCheckout checkout) =>
      !request.isLegacyFinaliser || w.sessions.all (·.reference ≠ checkout.reference)
  | .sql (.deleteEvent _ _) => false
  | _ => true

/-- What the operations of a request do in such steps, none of which fails. -/
def Stepping (p : Platform) (request : Request) : Performing Reply World := fun op w reply after =>
  leavesSessions request w op = true ∧ succeeded op reply = true ∧ performs p op w reply after

section Operations
variable {p : Platform} {op : Op} {w after : World} {reply : Reply op} {request : Request}

theorem Stepping.performs (performed : Stepping p request op w reply after) : performs p op w reply after :=
  performed.2.2

theorem InStep.of_same (held : InStep w) (sessions : after.sessions = w.sessions)
    (checkouts : after.checkouts = w.checkouts) (keys : ∀ cached ∈ after.cache, ∃ old ∈ w.cache, old.key = cached.key)
    (minted : w.minted ⊆ after.minted) : InStep after := by
  constructor
  · intro row member
    rw [sessions] at member
    have agrees := held.agrees row member
    constructor
    · unfold PaidFor
      rw [checkouts]
      exact agrees.paid
    · rw [checkouts]
      exact agrees.signature
  · rw [sessions]
    exact held.ids
  · rw [sessions]
    exact held.references
  · rw [sessions]
    exact fun row member => minted (held.sessions row member)
  · unfold CheckoutsMinted
    rw [checkouts]
    exact fun checkout member => minted (held.checkouts checkout member)
  · rw [checkouts]
    exact held.paid
  · intro cached member reference is_key
    obtain ⟨old, before, same⟩ := keys cached member
    exact minted (held.hashes old before reference (same.trans is_key))

/-- Operations that touch no session and no checkout, and write no hash. -/
def Op.aloof : Op → Bool
  | .redis (.hSet _ _) => false
  | op => op.writes.all fun part => part ∉ [Part.sessions, .checkouts]

theorem aloof_of_minor (minor : op.minor = true) : op.aloof = true := by
  cases op with
  | sql statement =>
      cases statement with
      | insertSession | setSessionState | setSessionPaid | upsertPaidCheckout | insertPaidCheckout
      | deletePendingCheckout | markCheckoutPaid | markCheckoutFailed | deleteEvent => cases minor
      | _ => rfl
  | redis command =>
      cases command with
      | hSet => cases minor
      | _ => rfl
  | _ => rfl

structure Aloof (w after : World) : Prop where
  sessions : after.sessions = w.sessions
  checkouts : after.checkouts = w.checkouts
  keys : ∀ cached ∈ after.cache, ∃ old ∈ w.cache, old.key = cached.key
  minted : w.minted ⊆ after.minted

theorem Beside.aloof (beside : Beside w after) : Aloof w after where
  sessions := beside.sessions
  checkouts := beside.checkouts
  keys cached member := ⟨cached, beside.cache ▸ member, rfl⟩
  minted := by
    rw [beside.minted]
    exact List.Subset.refl _

theorem Aloof.trans {middle : World} (first : Aloof w middle) (rest : Aloof middle after) : Aloof w after where
  sessions := rest.sessions.trans first.sessions
  checkouts := rest.checkouts.trans first.checkouts
  keys cached member := by
    obtain ⟨old, among, same⟩ := rest.keys cached member
    obtain ⟨older, before, same'⟩ := first.keys old among
    exact ⟨older, before, same'.trans same⟩
  minted := List.Subset.trans first.minted rest.minted

theorem performs_aloof (aloof : op.aloof = true) (performed : performs p op w reply after) : Aloof w after := by
  have unwritten (part : Part) (among : part ∈ [Part.sessions, .checkouts]) : part ∉ op.writes := by
    intro written
    unfold Op.aloof at aloof
    split at aloof
    · cases aloof
    · have apart := List.all_eq_true.mp aloof part written
      simp [among] at apart
  refine ⟨?_, ?_, ?_, minted_kept performed⟩
  · exact performs_frame .sessions performed (unwritten _ (by decide))
  · exact performs_frame .checkouts performed (unwritten _ (by decide))
  · intro cached member
    obtain ⟨choice, _, executed⟩ := performed
    rcases exec_cache (p := p) executed with same | ⟨_, _, rfl, _⟩ | ⟨_, _, _, dated⟩ | ⟨_, _, removed⟩
    · exact ⟨cached, same ▸ member, rfl⟩
    · cases aloof
    · rw [dated] at member
      obtain ⟨old, among, ⟨_, rfl⟩ | ⟨_, rfl⟩⟩ := mem_updateWhere member
      · exact ⟨old, among, rfl⟩
      · exact ⟨_, among, rfl⟩
    · rw [removed] at member
      exact ⟨cached, (List.mem_filter.mp member).1, rfl⟩

theorem InStep.aloof (held : InStep w) (aloof : Aloof w after) : InStep after :=
  held.of_same aloof.sessions aloof.checkouts aloof.keys aloof.minted

end Operations

section Opening
variable {p : Platform} {w after : World} {reference : String}

/-- The identifier was drawn, and no session or checkout bears it yet. -/
structure Unborn (w : World) (reference : String) : Prop where
  minted : reference ∈ w.minted
  sessions : ∀ row ∈ w.sessions, row.reference ≠ reference
  checkouts : ∀ checkout ∈ w.checkouts, checkout.reference ≠ reference

theorem Unborn.aloof (unborn : Unborn w reference) (aloof : Aloof w after) : Unborn after reference where
  minted := aloof.minted unborn.minted
  sessions := by
    rw [aloof.sessions]
    exact unborn.sessions
  checkouts := by
    rw [aloof.checkouts]
    exact unborn.checkouts

theorem InStep.drawn (held : InStep w) (performed : performs p .newUUID w reference after) :
    InStep after ∧ Unborn after reference ∧ p.uuidText reference = some reference := by
  have kept := held.aloof (performs_aloof rfl performed)
  obtain ⟨choice, _, executed⟩ := performed
  obtain ⟨unused, canonical, _, rfl⟩ := exec_newUUID (p := p) executed
  refine ⟨kept, ⟨List.mem_cons_self, ?_, ?_⟩, canonical⟩
  · rintro row member rfl
    exact unused (held.sessions row member)
  · rintro checkout member rfl
    exact unused (held.checkouts checkout member)

-- A hash is written under an identifier that was drawn.
theorem InStep.hashed (held : InStep w) {hash : InvoiceHash} (unborn : Unborn w reference) {reply : Except Fault Unit}
    (performed : performs p (.redis (.hSet (redisKey reference) hash)) w reply after) :
    InStep after ∧ Unborn after reference := by
  obtain ⟨choice, _, executed⟩ := performed
  change exec p choice (.redis (.hSet (redisKey reference) hash)) w = some (reply, after) at executed
  rcases exec_redis executed with ⟨_, _, rfl⟩ | ⟨value, _, ran⟩
  · exact ⟨held, unborn⟩
  · cases ran
    refine ⟨⟨fun row member => ?_, held.ids, held.references, held.sessions, held.checkouts, held.paid, ?_⟩,
      unborn.minted, unborn.sessions, unborn.checkouts⟩
    · exact ⟨(held.agrees row member).paid, (held.agrees row member).signature⟩
    intro cached member other is_key
    rcases List.mem_cons.mp member with rfl | old
    · exact redisKey_injective is_key ▸ unborn.minted
    · exact held.hashes cached (List.mem_filter.mp old).1 other is_key

-- A new session awaits its payment, and there is none.
theorem InStep.inserted (held : InStep w) (unborn : Unborn w reference)
    (canonical : p.uuidText reference = some reference) {session : NewSession} (named : session.reference = reference)
    {reply : Except Fault Unit} (performed : performs p (.sql (.insertSession session)) w reply after) :
    InStep after := by
  obtain ⟨choice, _, executed⟩ := performed
  change exec p choice (.sql (.insertSession session)) w = some (reply, after) at executed
  rcases exec_sql executed with ⟨_, _, rfl⟩ | ⟨value, _, ran⟩
  · exact held
  · obtain ⟨id, named', stored, _, cast, _, unique, rfl⟩ := runInsertSession_ok ran
    rw [named, canonical, Option.some.injEq] at cast
    subst cast
    refine ⟨?_, ?_, ?_, ?_, held.checkouts, held.paid, held.hashes⟩
    · intro row member
      rcases List.mem_append.mp member with old | new
      · exact ⟨(held.agrees row old).paid, (held.agrees row old).signature⟩
      · obtain rfl := List.mem_singleton.mp new
        constructor
        · refine iff_of_false (by rintro ⟨⟩) ?_
          rintro ⟨checkout, among, same, _⟩
          exact unborn.checkouts checkout among same
        · intro checkout among same
          exact absurd same (unborn.checkouts checkout among)
    · rw [List.map_append, List.map_singleton]
      refine List.nodup_append.mpr ⟨held.ids, List.nodup_singleton _, fun _ old _ new => ?_⟩
      obtain ⟨row, member, rfl⟩ := List.mem_map.mp old
      rw [List.mem_singleton.mp new]
      exact (unique row member).1
    · rw [List.map_append, List.map_singleton]
      refine List.nodup_append.mpr ⟨held.references, List.nodup_singleton _, fun _ old _ new => ?_⟩
      obtain ⟨row, member, rfl⟩ := List.mem_map.mp old
      rw [List.mem_singleton.mp new]
      exact (unique row member).2.1
    · intro row member
      rcases List.mem_append.mp member with old | new
      · exact held.sessions row old
      · obtain rfl := List.mem_singleton.mp new
        exact unborn.minted

end Opening

section Paying
variable {p : Platform} {w after : World} {reference signature : String}

/-- The checkout of the reference is stored as paid by the signature; the others stand. -/
structure Upserted (w after : World) (reference signature : String) : Prop where
  sessions : after.sessions = w.sessions
  cache : after.cache = w.cache
  minted : after.minted = w.minted
  others : ∀ checkout : CheckoutRow, checkout.reference ≠ reference →
    (checkout ∈ after.checkouts ↔ checkout ∈ w.checkouts)
  stored : ∃ checkout ∈ after.checkouts, checkout.reference = reference
  paid : ∀ checkout ∈ after.checkouts, checkout.reference = reference →
    checkout.status = .paid ∧ checkout.signature = some signature

theorem upserted_append {checkout : PaidCheckout} {data : Json}
    (unborn : ∀ row ∈ w.checkouts, row.reference ≠ checkout.reference) :
    Upserted w (w.appendCheckout checkout data) checkout.reference checkout.signature where
  sessions := rfl
  cache := rfl
  minted := rfl
  others := by
    intro row other
    constructor
    · intro member
      rcases List.mem_append.mp member with old | new
      · exact old
      · obtain rfl := List.mem_singleton.mp new
        exact absurd rfl other
    · exact fun member => List.mem_append_left _ member
  stored := ⟨_, List.mem_append_right _ (List.mem_singleton_self _), rfl⟩
  paid := by
    intro row member same
    rcases List.mem_append.mp member with old | new
    · exact absurd same (unborn row old)
    · obtain rfl := List.mem_singleton.mp new
      exact ⟨rfl, rfl⟩

theorem upserted_overwrite {checkout : PaidCheckout} {data : Json}
    (conflict : ∃ row ∈ w.checkouts, row.reference = checkout.reference) :
    Upserted w { w with checkouts := overwriteCheckouts checkout w.now data w.checkouts } checkout.reference
      checkout.signature where
  sessions := rfl
  cache := rfl
  minted := rfl
  others := by
    intro row other
    constructor
    · intro member
      obtain ⟨old, among, ⟨chosen, rfl⟩ | ⟨_, rfl⟩⟩ := mem_updateWhere member
      · exact absurd (by simpa using chosen) other
      · exact among
    · intro member
      rcases updateWhere_mem (·.reference = checkout.reference) (·.overwrite checkout w.now data) member with
        ⟨chosen, _⟩ | ⟨_, kept⟩
      · exact absurd (by simpa using chosen) other
      · exact kept
  stored := by
    obtain ⟨row, member, same⟩ := conflict
    rcases updateWhere_mem (·.reference = checkout.reference) (·.overwrite checkout w.now data) member with
      ⟨_, changed⟩ | ⟨unchosen, _⟩
    · exact ⟨_, changed, same⟩
    · simp [same] at unchosen
  paid := by
    intro row member same
    obtain ⟨old, among, ⟨_, rfl⟩ | ⟨unchosen, rfl⟩⟩ := mem_updateWhere member
    · exact ⟨rfl, rfl⟩
    · simp [same] at unchosen

theorem upserted_of {checkout : PaidCheckout} {reply : Except Fault Unit}
    (performed : performs p (.sql (.upsertPaidCheckout checkout)) w reply after) :
    (∃ fault, reply = .error fault ∧ after = w) ∨
      reply = .ok () ∧ Upserted w after checkout.reference checkout.signature := by
  obtain ⟨choice, _, executed⟩ := performed
  change exec p choice (.sql (.upsertPaidCheckout checkout)) w = some (reply, after) at executed
  rcases exec_sql executed with ⟨fault, failed⟩ | ⟨value, same, ran⟩
  · exact .inl ⟨_, failed⟩
  · refine .inr ⟨same, ?_⟩
    simp only [Sql.run, runUpsertPaidCheckout] at ran
    split at ran
    · cases ran
    · split at ran
      · next conflict =>
        cases ran
        exact upserted_overwrite (by simpa using conflict)
      · next unborn =>
        split at ran
        · cases ran
          exact upserted_append (by simpa using unborn)
        · cases ran

theorem upserted_of_insert {checkout : PaidCheckout} {reply : Except Fault Unit}
    (performed : performs p (.sql (.insertPaidCheckout checkout)) w reply after) :
    (∃ fault, reply = .error fault ∧ after = w) ∨
      reply = .ok () ∧ Upserted w after checkout.reference checkout.signature := by
  obtain ⟨choice, _, executed⟩ := performed
  change exec p choice (.sql (.insertPaidCheckout checkout)) w = some (reply, after) at executed
  rcases exec_sql executed with ⟨fault, failed⟩ | ⟨value, same, ran⟩
  · exact .inl ⟨_, failed⟩
  · refine .inr ⟨same, ?_⟩
    simp only [Sql.run, runInsertPaidCheckout] at ran
    split at ran
    · cases ran
    · split at ran
      · cases ran
      · next unborn =>
        split at ran
        · cases ran
          exact upserted_append (by simpa using unborn)
        · cases ran

theorem Upserted.paidFor (upserted : Upserted w after reference signature) {other : String} (apart : other ≠ reference) :
    PaidFor after other ↔ PaidFor w other := by
  constructor
  · rintro ⟨checkout, member, rfl, paid⟩
    exact ⟨checkout, (upserted.others checkout apart).mp member, rfl, paid⟩
  · rintro ⟨checkout, member, rfl, paid⟩
    exact ⟨checkout, (upserted.others checkout apart).mpr member, rfl, paid⟩

theorem Upserted.agrees (upserted : Upserted w after reference signature) {row : SessionRow}
    (apart : row.reference ≠ reference) (agrees : Agrees w row) : Agrees after row where
  paid := agrees.paid.trans (upserted.paidFor apart).symm
  signature checkout member same :=
    agrees.signature checkout ((upserted.others checkout (same ▸ apart)).mp member) same

theorem Upserted.checkout (upserted : Upserted w after reference signature) {checkout : CheckoutRow}
    (member : checkout ∈ after.checkouts) : checkout.reference = reference ∨ checkout ∈ w.checkouts := by
  by_cases same : checkout.reference = reference
  · exact .inl same
  · exact .inr ((upserted.others checkout same).mp member)

theorem InStep.upserted (held : InStep w) (upserted : Upserted w after reference signature)
    (minted : reference ∈ w.minted) (apart : ∀ row ∈ w.sessions, row.reference ≠ reference) : InStep after := by
  constructor
  · intro row member
    rw [upserted.sessions] at member
    exact upserted.agrees (apart row member) (held.agrees row member)
  · rw [upserted.sessions]
    exact held.ids
  · rw [upserted.sessions]
    exact held.references
  · rw [upserted.sessions, upserted.minted]
    exact held.sessions
  · intro checkout member
    rw [upserted.minted]
    rcases upserted.checkout member with same | old
    · exact same ▸ minted
    · exact held.checkouts checkout old
  · intro checkout member
    rcases upserted.checkout member with same | old
    · exact (upserted.paid checkout member same).1
    · exact held.paid checkout old
  · unfold HashesMinted
    rw [upserted.cache, upserted.minted]
    exact held.hashes

def World.settled (w : World) (id signature : String) : World :=
  w.updateSession id fun row => { row with state := .paid, signature := some signature }

-- An update that leaves alone the field the rows are told apart by.
theorem distinct_updated {Row Value : Type} {selected : Row → Bool} {set : Row → Row} {field : Row → Value}
    {rows : List Row} (distinct : (rows.map field).Nodup) (same : ∀ row, field (set row) = field row) :
    ((updateWhere selected set rows).map field).Nodup := by
  have fields : (updateWhere selected set rows).map field = rows.map field := by
    unfold updateWhere
    rw [List.map_map]
    refine List.map_congr_left fun row _ => ?_
    simp only [Function.comp_apply]
    split
    · exact same row
    · rfl
  rwa [fields]

theorem row_unique {Row Value : Type} {field : Row → Value} {rows : List Row} (distinct : (rows.map field).Nodup)
    {row other : Row} (member : row ∈ rows) (among : other ∈ rows) (same : field row = field other) : row = other :=
  List.inj_on_of_nodup_map distinct member among same

/-- The checkout of a session is paid, and then the session is settled by the same signature. -/
theorem InStep.settling (held : InStep w) {row : SessionRow} (member : row ∈ w.sessions)
    (upserted : Upserted w after row.reference signature) : InStep (after.settled row.id signature) := by
  have sessions : (after.settled row.id signature).sessions = updateWhere (·.id = row.id)
      (fun row => { row with state := .paid, signature := some signature }) w.sessions := by
    rw [← upserted.sessions]
    rfl
  constructor
  · intro current among
    rw [sessions] at among
    obtain ⟨old, before, ⟨chosen, rfl⟩ | ⟨unchosen, rfl⟩⟩ := mem_updateWhere among
    · have is_row : old = row := row_unique held.ids before member (by simpa using chosen)
      subst is_row
      constructor
      · obtain ⟨checkout, stored, same⟩ := upserted.stored
        exact iff_of_true rfl ⟨checkout, stored, same, (upserted.paid checkout stored same).1⟩
      · exact fun checkout stored same _ => (upserted.paid checkout stored same).2
    · have apart : current.reference ≠ row.reference := by
        intro same
        obtain rfl := row_unique held.references before member same
        simp at unchosen
      have agrees := upserted.agrees apart (held.agrees current before)
      exact ⟨agrees.paid, agrees.signature⟩
  · rw [sessions]
    exact distinct_updated held.ids fun _ => rfl
  · rw [sessions]
    exact distinct_updated held.references fun _ => rfl
  · intro current among
    rw [sessions] at among
    change current.reference ∈ after.minted
    rw [upserted.minted]
    obtain ⟨old, before, ⟨_, rfl⟩ | ⟨_, rfl⟩⟩ := mem_updateWhere among
    · exact held.sessions old before
    · exact held.sessions _ before
  · intro checkout among
    change checkout.reference ∈ after.minted
    rw [upserted.minted]
    rcases upserted.checkout among with same | old
    · exact same ▸ held.sessions row member
    · exact held.checkouts checkout old
  · intro checkout among
    rcases upserted.checkout among with same | old
    · exact (upserted.paid checkout among same).1
    · exact held.paid checkout old
  · intro cached among
    change ∀ reference, _ → reference ∈ after.minted
    rw [upserted.minted]
    exact held.hashes cached (upserted.cache ▸ among)

def NeverSettled (w : World) (id reference : String) : Prop :=
  ∃ row ∈ w.sessions, row.id = id ∧ row.reference = reference ∧ row.state ≠ .paid

-- Another state than paid for a session that is not.
theorem InStep.marked (held : InStep w) {id text : String} (cast : p.uuidText text = some id)
    (unpaid : NeverSettled w id reference) {state : SessionState} (other : state ≠ .paid) {reply : Except Fault Unit}
    (performed : performs p (.sql (.setSessionState text state)) w reply after) :
    InStep after ∧ NeverSettled after id reference := by
  obtain ⟨choice, _, executed⟩ := performed
  change exec p choice (.sql (.setSessionState text state)) w = some (reply, after) at executed
  rcases exec_sql executed with ⟨_, _, rfl⟩ | ⟨value, _, ran⟩
  · exact ⟨held, unpaid⟩
  · simp only [Sql.run, withSessionId, cast] at ran
    cases ran
    obtain ⟨row, member, is_id, named, open_row⟩ := unpaid
    refine ⟨⟨?_, ?_, ?_, ?_, held.checkouts, held.paid, held.hashes⟩, ?_⟩
    · intro current among
      obtain ⟨old, before, ⟨chosen, rfl⟩ | ⟨_, rfl⟩⟩ := mem_updateWhere among
      · have is_row : old = row := row_unique held.ids before member (by simpa [is_id] using chosen)
        subst is_row
        have nothing : ¬ PaidFor w old.reference := fun paid => open_row ((held.agrees old member).paid.mpr paid)
        constructor
        · exact iff_of_false other nothing
        · exact fun checkout stored same paid => absurd ⟨checkout, stored, same, paid⟩ nothing
      · exact ⟨(held.agrees current before).paid, (held.agrees current before).signature⟩
    · exact distinct_updated held.ids fun _ => rfl
    · exact distinct_updated held.references fun _ => rfl
    · intro current among
      obtain ⟨old, before, ⟨_, rfl⟩ | ⟨_, rfl⟩⟩ := mem_updateWhere among
      · exact held.sessions old before
      · exact held.sessions _ before
    · rcases updateWhere_mem (·.id = id) (fun row : SessionRow => { row with state := state }) member with
        ⟨_, changed⟩ | ⟨unchosen, _⟩
      · exact ⟨_, changed, is_id, named, other⟩
      · simp [is_id] at unchosen

theorem NeverSettled.of_same {id : String} (unpaid : NeverSettled w id reference) (same : after.sessions = w.sessions) :
    NeverSettled after id reference := by
  unfold NeverSettled
  rwa [same]

end Paying

section Rules
variable {p : Platform} {w after : World} {request : Request} {Value Result : Type}

def KeepsStep (p : Platform) (request : Request) (program : Handler Result) : Prop :=
  ∀ w, InStep w → program.Ensures (Stepping p request) (fun _ => InStep) w

theorem InStep.past (held : InStep w) {program : Handler Value} {next : Value → Handler Result}
    (only : Only Op.aloof program)
    (rest : ∀ value after, InStep after → Aloof w after →
      (next value).Ensures (Stepping p request) (fun _ => InStep) after) :
    (program >>= next).Ensures (Stepping p request) (fun _ => InStep) w := by
  have start : Aloof w w := Beside.aloof (Beside.refl w)
  have passing : program.Ensures (Stepping p request) (fun _ after => InStep after ∧ Aloof w after) w :=
    only.ensures ⟨held, start⟩ fun _ _ _ _ aloof performed before =>
      have aloof := performs_aloof aloof performed.performs
      ⟨before.1.aloof aloof, before.2.trans aloof⟩
  exact passing.sequence fun value after both => rest value after both.1 both.2

namespace KeepsStep

theorem aloof {program : Handler Result} (only : Only Op.aloof program) : KeepsStep p request program :=
  fun _ held => only.ensures held fun _ _ _ _ aloof performed held =>
    held.aloof (performs_aloof aloof performed.performs)

theorem minor {program : Handler Result} (only : Only Op.minor program) : KeepsStep p request program :=
  aloof (only.mono fun _ => aloof_of_minor)

theorem perform {op : Op} (is_aloof : op.aloof = true) :
    KeepsStep p request (Program.perform op : Handler (Reply op)) := aloof (Only.perform is_aloof)

theorem pure (answer : Result) : KeepsStep p request (Pure.pure answer : Handler Result) := aloof (Only.pure answer)

theorem bind {program : Handler Value} {next : Value → Handler Result} (first : KeepsStep p request program)
    (rest : ∀ value, KeepsStep p request (next value)) : KeepsStep p request (program >>= next) :=
  fun w held => (first w held).sequence fun value middle held => rest value middle held

theorem deletePending (reference : String) :
    KeepsStep p request (sql (.deletePendingCheckout reference) : Handler (Except Fault Unit)) := by
  intro w held
  unfold sql
  rw [Program.perform, Program.ensures_call]
  intro reply after performed
  rw [Program.ensures_ret]
  obtain ⟨_, _, choice, _, executed⟩ := performed
  change exec p choice (.sql (.deletePendingCheckout reference)) w = some (reply, after) at executed
  rcases exec_sql executed with ⟨_, _, rfl⟩ | ⟨value, _, ran⟩
  · exact held
  · cases ran
    refine held.of_same rfl ?_ (fun cached member => ⟨cached, member, rfl⟩) (List.Subset.refl _)
    refine List.filter_eq_self.mpr fun checkout member => ?_
    simp [held.paid checkout member]

end KeepsStep
end Rules

section Handlers
variable {p : Platform} {w after : World} {request : Request} {reference : String}

namespace KeepsStep

theorem invoice (event : EventRow) (walletAddress paymentMethod : String) (data : Option Object) :
    KeepsStep p request (createCheckoutInvoice.invoice p event walletAddress paymentMethod data) := by
  intro w held
  unfold createCheckoutInvoice.invoice newUUID redis
  refine (Program.ensures_perform_bind _ _ _).mpr fun reference drawn performed => ?_
  obtain ⟨held, unborn, _⟩ := held.drawn performed.performs
  refine (Program.ensures_perform_bind _ _ _).mpr fun reply hashed performed => ?_
  obtain ⟨held, _⟩ := held.hashed unborn performed.performs
  rcases reply with fault | _
  · exact pure _ _ held
  · refine held.past (Only.perform rfl) fun reply dated held _ => ?_
    rcases reply with fault | _
    · exact pure _ _ held
    · exact pure _ _ held

theorem session (event : EventRow) (ownerEmail idemKey walletAddress paymentMethod : String)
    (data : Option Object) :
    KeepsStep p request (v1CreatePaymentSession.session p event ownerEmail idemKey walletAddress paymentMethod data) := by
  intro w held
  unfold v1CreatePaymentSession.session newUUID timeNow redis sql
  refine held.past (Only.perform rfl) fun sessionID identified held _ => ?_
  refine (Program.ensures_perform_bind _ _ _).mpr fun reference drawn performed => ?_
  obtain ⟨held, unborn, canonical⟩ := held.drawn performed.performs
  refine held.past (Only.perform rfl) fun now timed held aloof => ?_
  have unborn := unborn.aloof aloof
  dsimp only
  refine (Program.ensures_perform_bind _ _ _).mpr fun reply hashed performed => ?_
  obtain ⟨held, unborn⟩ := held.hashed unborn performed.performs
  rcases reply with fault | _
  · exact pure _ _ held
  · refine held.past (Only.perform rfl) fun expiry dated held aloof => ?_
    have unborn := unborn.aloof aloof
    refine (Program.ensures_perform_bind _ _ _).mpr fun reply inserted performed => ?_
    have held := held.inserted unborn canonical rfl performed.performs
    rcases reply with fault | _
    · exact pure _ _ held
    · exact (bind (minor (Only.remember _ _ _ _)) fun _ =>
        bind (minor (Only.emitWebhook _ _)) fun _ => pure _) _ held

theorem createInvoice (r : HttpRequest CreateCheckoutInvoiceRequest) :
    KeepsStep p request (createCheckoutInvoice p r) := by
  unfold createCheckoutInvoice ensureParticipantEmailAvailable sql timeNow
  repeat' with_reducible first
    | exact pure _ | exact perform rfl | exact minor (Only.checkEmail _ _ _) | exact invoice _ _ _ _
    | refine bind ?_ fun _ => ?_ | split | dsimp only

theorem createSession (r : V1CreateRequest) : KeepsStep p request (v1CreatePaymentSession p r) := by
  unfold v1CreatePaymentSession ensureParticipantEmailAvailable timeNow
  repeat' with_reducible first
    | exact pure _ | exact perform rfl | exact minor (Only.checkEmail _ _ _) | exact minor (Only.replayed _ _ _)
    | exact minor (Only.selectEvent _ _) | exact session _ _ _ _ _ _ | refine bind ?_ fun _ => ?_ | split
    | dsimp only

theorem cancelInvoice (r : HttpRequest ReferenceRequest) : KeepsStep p request (cancelCheckoutInvoice p r) := by
  unfold cancelCheckoutInvoice redis
  repeat' with_reducible first
    | exact pure _ | exact deletePending _ | exact perform rfl | refine bind ?_ fun _ => ?_ | split
  exact perform rfl

/-- A manually verified checkout is of no session: its reference has just been drawn. -/
theorem manualVerify (r : HttpRequest ManualVerifyRequest) :
    KeepsStep p request (manualVerifyCheckoutPayment p r) := by
  intro w held
  unfold manualVerifyCheckoutPayment sql newUUID
  split
  · exact pure _ _ held
  · split
    · dsimp only
      split
      · exact pure _ _ held
      · refine held.past (Only.perform rfl) fun reply read held _ => ?_
        rcases reply with fault | (_ | event)
        · exact pure _ _ held
        · exact pure _ _ held
        · refine held.past ((Only.verifyDirect _ _ _ _).mono fun _ => aloof_of_minor) fun verdict verified held _ => ?_
          cases verdict with
          | panicked => exact pure _ _ held
          | rejected text => exact pure _ _ held
          | accepted _ =>
              refine (Program.ensures_perform_bind _ _ _).mpr fun reference drawn performed => ?_
              obtain ⟨held, unborn, _⟩ := held.drawn performed.performs
              refine held.past (Only.perform rfl) fun _ recorded held aloof => ?_
              have unborn := unborn.aloof aloof
              refine (Program.ensures_perform_bind _ _ _).mpr fun reply inserted performed => ?_
              rcases upserted_of_insert performed.performs with ⟨_, _, rfl⟩ | ⟨_, upserted⟩
              · exact pure _ _ held
              · exact pure _ _ (held.upserted upserted unborn.minted unborn.sessions)
    · exact pure _ _ held

theorem recoverErrors : KeepsStep p request (recoverErrorInvoices p) := by
  intro w held
  unfold recoverErrorInvoices sql
  refine (Program.ensures_perform_bind _ _ _).mpr fun reply read performed => ?_
  obtain ⟨_, _, choice, _, executed⟩ := performed
  change exec p choice (.sql .selectRecoverable) w = some (reply, read) at executed
  rcases exec_sql executed with ⟨_, rfl, rfl⟩ | ⟨rows, rfl, ran⟩
  · exact pure _ _ held
  · have nothing : w.checkouts.filterMap (recoverable w) = [] := by
      refine List.filterMap_eq_nil_iff.mpr fun checkout member => ?_
      simp [recoverable, held.paid checkout member]
    simp only [Sql.run, nothing, List.mergeSort_nil, List.take_nil] at ran
    cases ran
    exact pure _ _ held

theorem deleteEvent (eventID : Int64) (ownerEmail : String) :
    KeepsStep p request (Payknot.deleteEvent eventID ownerEmail) := by
  intro w held
  unfold Payknot.deleteEvent sql
  refine held.past (Only.perform rfl) fun reply read held _ => ?_
  rcases reply with fault | (_ | _)
  · exact pure _ _ held
  · refine (Program.ensures_perform_bind _ _ _).mpr fun reply deleted performed => ?_
    cases performed.1
  · exact pure _ _ held

end KeepsStep

/-- What finalisation leaves when it ends: nothing of note, or the checkout. -/
def Finalised (request : Request) (w : World) (reference signature : String) (result : Except String Unit)
    (after : World) : Prop :=
  match result with
  | .error _ => Aloof w after
  | .ok _ => ∃ middle, Aloof w middle ∧ Upserted middle after reference signature ∧
      (request.isLegacyFinaliser = true → ∀ row ∈ middle.sessions, row.reference ≠ reference)

theorem finalize_ensures (signature : String) (data : InvoiceHash) (amount : Int64) (w : World) :
    (finalizePaidCheckout p reference signature data amount).Ensures (Stepping p request)
      (Finalised request w reference signature) w := by
  have refines (op : Op) (w : World) (reply : Reply op) (after : World)
      (performed : Stepping p request op w reply after) : performs p op w reply after := performed.performs
  unfold finalizePaidCheckout sql
  cases parseInt data.eventId with
  | error text =>
      rw [Program.ensures_pure]
      exact (Beside.refl w).aloof
  | ok eventID =>
      refine ((Only.checkEmail _ _ _).beside refines w).sequence fun checked looked beside => ?_
      cases checked with
      | error text =>
          rw [Program.ensures_pure]
          exact beside.aloof
      | ok _ =>
          refine (Program.ensures_perform_bind _ _ _).mpr fun reply recorded performed => ?_
          have aloof := beside.aloof.trans (performs_aloof rfl performed.performs)
          rcases reply with fault | _
          · rw [Program.ensures_pure]
            exact aloof
          · refine (Program.ensures_perform_bind _ _ _).mpr fun reply stored performed => ?_
            rcases upserted_of performed.performs with ⟨fault, rfl, rfl⟩ | ⟨rfl, upserted⟩
            · rw [Program.ensures_pure]
              exact aloof
            · rw [Program.ensures_pure]
              refine ⟨recorded, aloof, upserted, fun legacy => ?_⟩
              simpa [leavesSessions, legacy] using performed.1

theorem InStep.found_minted (held : InStep w) {hash : InvoiceHash}
    (performed : performs p (.redis (.hGetAll (redisKey reference))) w (.ok (some hash)) after) :
    reference ∈ w.minted := by
  obtain ⟨choice, _, executed⟩ := performed
  obtain ⟨cached, member, is_key⟩ := cached_of_read (p := p) executed
  exact held.hashes cached member reference is_key

theorem settles_legacy (legacy : request.isLegacyFinaliser = true) (held : InStep w) (minted : reference ∈ w.minted)
    (signature : String) (data : InvoiceHash) (amount : Int64) (refusal : String → Answer) :
    (do
      match ← finalizePaidCheckout p reference signature data amount with
      | .error text => return refusal text
      | .ok _ =>
          let _ ← redis (.del (redisKey reference))
          respondCheckoutStatus reference : Handler Answer).Ensures (Stepping p request) (fun _ => InStep) w := by
  refine (finalize_ensures signature data amount w).sequence fun result after finalised => ?_
  cases result with
  | error text => exact KeepsStep.pure _ _ (held.aloof finalised)
  | ok _ =>
      obtain ⟨middle, aloof, upserted, apart⟩ := finalised
      have held := (held.aloof aloof).upserted upserted (aloof.minted minted) (apart legacy)
      exact (KeepsStep.bind (KeepsStep.perform rfl) fun _ => KeepsStep.minor (Only.respond _)) _ held

namespace KeepsStep

theorem confirm (r : HttpRequest SignatureRequest) : KeepsStep p (.confirm r) (confirmCheckoutPayment p r) := by
  intro w held
  unfold confirmCheckoutPayment verifyTransactionForMerchant
  split
  · exact pure _ _ held
  · split
    · split
      · exact pure _ _ held
      · refine (Program.ensures_perform_bind _ _ _).mpr fun reply read performed => ?_
        obtain rfl := performs_looks rfl performed.performs
        rcases reply with fault | (_ | data)
        · exact pure _ _ held
        · exact pure _ _ held
        · have minted := held.found_minted performed.performs
          dsimp only
          split
          · exact pure _ _ held
          · split
            · exact pure _ _ held
            · refine held.past ((Only.verify _ _ _ _).mono fun _ => aloof_of_minor) fun verdict verified held aloof => ?_
              cases verdict with
              | panicked => exact pure _ _ held
              | rejected text => exact (bind (perform rfl) fun _ => pure _) _ held
              | accepted sender =>
                  exact settles_legacy rfl held (aloof.minted minted) _ _ _ fun _ => httpError _ _
    · exact pure _ _ held

theorem recheckUnpaid (r : HttpRequest SignatureRequest) (reference signature : String) :
    KeepsStep p (.recheck r) (recheckCheckoutPayment.unpaid p reference signature) := by
  intro w held
  unfold recheckCheckoutPayment.unpaid verifyTransactionForMerchant
  refine (Program.ensures_perform_bind _ _ _).mpr fun reply read performed => ?_
  obtain rfl := performs_looks rfl performed.performs
  rcases reply with fault | (_ | data)
  · exact pure _ _ held
  · exact pure _ _ held
  · have minted := held.found_minted performed.performs
    dsimp only
    split
    · exact pure _ _ held
    · split
      · exact pure _ _ held
      · split
        · exact pure _ _ held
        · refine held.past ((Only.verify _ _ _ _).mono fun _ => aloof_of_minor) fun verdict verified held aloof => ?_
          cases verdict with
          | panicked => exact pure _ _ held
          | rejected text => exact pure _ _ held
          | accepted sender =>
              exact settles_legacy rfl held (aloof.minted minted) _ _ _ fun _ => httpError _ _

theorem recheck (r : HttpRequest SignatureRequest) : KeepsStep p (.recheck r) (recheckCheckoutPayment p r) := by
  unfold recheckCheckoutPayment sql
  repeat' with_reducible first
    | exact pure _ | exact perform rfl | exact minor (Only.respond _) | exact recheckUnpaid _ _ _
    | refine bind ?_ fun _ => ?_ | split

theorem detectUnpaid (r : HttpRequest ReferenceRequest) (reference : String) :
    KeepsStep p (.detect r) (detectCheckoutPayment.unpaid p reference) := by
  intro w held
  unfold detectCheckoutPayment.unpaid
  refine (Program.ensures_perform_bind _ _ _).mpr fun reply read performed => ?_
  obtain rfl := performs_looks rfl performed.performs
  rcases reply with fault | (_ | data)
  · exact pure _ _ held
  · exact pure _ _ held
  · have minted := held.found_minted performed.performs
    dsimp only
    split
    · exact pure _ _ held
    · split
      · exact pure _ _ held
      · refine held.past ((Only.detectSignature _ _ _).mono fun _ => aloof_of_minor) fun verdict detected held aloof => ?_
        rcases verdict with ⟨signature, sender⟩ | text | _
        · exact settles_legacy rfl held (aloof.minted minted) _ _ _ fun _ => httpError _ _
        · exact pure _ _ held
        · exact pure _ _ held

theorem detect (r : HttpRequest ReferenceRequest) : KeepsStep p (.detect r) (detectCheckoutPayment p r) := by
  unfold detectCheckoutPayment
  repeat' with_reducible first
    | exact pure _ | exact minor (Only.getCheckoutStatus _) | exact detectUnpaid _ _
    | refine bind ?_ fun _ => ?_ | split | dsimp only

end KeepsStep
end Handlers

section Sessions
variable {p : Platform} {w after : World} {request : Request} {id text reference signature : String}

theorem NeverSettled.aloof (unpaid : NeverSettled w id reference) (aloof : Aloof w after) : NeverSettled after id reference :=
  unpaid.of_same aloof.sessions

-- The session that was read, unless it is paid.
theorem unpaid_of_read {row : SessionRow} (read : performs p (.sql (.selectSession text)) w (.ok (some row)) after)
    (open_row : row.state ≠ .paid) : ∃ id, p.uuidText text = some id ∧ NeverSettled w id row.reference := by
  obtain ⟨id, cast, found⟩ := read_session read
  have is_id : row.id = id := by simpa using List.find?_some found
  exact ⟨id, cast, row, List.mem_of_find?_eq_some found, is_id, rfl, open_row⟩

theorem settle_ensures (cast : p.uuidText text = some id) (held : InStep (w.settled id signature)) :
    (settleSession text signature reference).Ensures (Stepping p request) (fun _ => InStep) w := by
  unfold settleSession sql redis
  refine (Program.ensures_perform_bind _ _ _).mpr fun reply attempted performed => ?_
  have beside := performs_minor rfl performed.performs
  have held : InStep (attempted.settled id signature) := by
    have sessions : (attempted.settled id signature).sessions = (w.settled id signature).sessions := by
      simp only [World.settled, World.updateSession, beside.sessions]
    refine held.of_same sessions beside.checkouts (fun cached member => ⟨cached, beside.cache ▸ member, rfl⟩) ?_
    change w.minted ⊆ attempted.minted
    rw [beside.minted]
    exact List.Subset.refl _
  refine (Program.ensures_perform_bind _ _ _).mpr fun reply settled performed => ?_
  have held : InStep settled := by
    obtain ⟨_, succeeds, choice, _, executed⟩ := performed
    change exec p choice (.sql (.setSessionPaid text signature)) attempted = some (reply, settled) at executed
    rcases exec_sql executed with ⟨fault, rfl, _⟩ | ⟨value, _, ran⟩
    · cases succeeds
    · simp only [Sql.run, withSessionId, cast] at ran
      cases ran
      exact held
  exact (KeepsStep.bind (KeepsStep.perform rfl) fun _ => KeepsStep.pure _) _ held

-- How the v1 finalisers go on: the checkout first, the session after it.
theorem InStep.finalised (held : InStep w) (cast : p.uuidText text = some id) (unpaid : NeverSettled w id reference)
    {result : Except String Unit} (finalised : Finalised request w reference signature result after) :
    (∃ fault, result = .error fault ∧ InStep after ∧ NeverSettled after id reference) ∨
      result = .ok () ∧ (settleSession text signature reference).Ensures (Stepping p request) (fun _ => InStep) after := by
  cases result with
  | error fault => exact .inl ⟨fault, rfl, held.aloof finalised, unpaid.aloof finalised⟩
  | ok _ =>
      obtain ⟨middle, aloof, upserted, _⟩ := finalised
      obtain ⟨row, member, rfl, rfl, _⟩ := unpaid.aloof aloof
      exact .inr ⟨rfl, settle_ensures cast ((held.aloof aloof).settling member upserted)⟩

namespace KeepsStep

theorem detectPayment (r : V1Request) : KeepsStep p (.v1Detect r) (v1DetectPayment p r) := by
  intro w held
  unfold v1DetectPayment sql
  split
  · exact pure _ _ held
  · refine (Program.ensures_perform_bind _ _ _).mpr fun reply read performed => ?_
    obtain rfl := performs_looks rfl performed.performs
    rcases reply with fault | (_ | row)
    · exact pure _ _ held
    · exact pure _ _ held
    · dsimp only
      split
      · exact (minor (Only.respond _)) _ held
      · next open_row =>
        obtain ⟨id, cast, unpaid⟩ := unpaid_of_read performed.performs open_row
        refine held.past (Only.perform rfl) fun reply looked held aloof => ?_
        have unpaid := unpaid.aloof aloof
        rcases reply with fault | (_ | data)
        · exact pure _ _ held
        · exact pure _ _ held
        · refine held.past ((Only.detectSignature _ _ _).mono fun _ => aloof_of_minor) fun verdict detected held aloof => ?_
          have unpaid := unpaid.aloof aloof
          rcases verdict with ⟨signature, sender⟩ | text | _
          · refine (finalize_ensures signature _ _ _).sequence fun result finalised ends => ?_
            rcases held.finalised cast unpaid ends with ⟨fault, rfl, held, _⟩ | ⟨rfl, settles⟩
            · exact pure _ _ held
            · refine settles.sequence fun _ settled held => ?_
              exact (bind (minor (Only.getCheckoutStatus _)) fun _ =>
                bind (minor (Only.emitWebhook _ _)) fun _ => pure _) _ held
          · exact (bind (minor (Only.emitWebhook _ _)) fun _ => pure _) _ held
          · exact pure _ _ held

-- An attempt that failed, and the last word to the webhook.
theorem failed (held : InStep w) (cast : p.uuidText text = some id) (unpaid : NeverSettled w id reference)
    (signature error event : String) (told : List (String × String)) (answer : Answer) :
    (do
      failAttempt text signature error
      emitPaymentWebhook p event told
      return answer : Handler Answer).Ensures (Stepping p request) (fun _ => InStep) w := by
  have attempt : (failAttempt text signature error).Ensures (Stepping p request) (fun _ => InStep) w := by
    unfold failAttempt sql
    refine held.past (Only.perform rfl) fun _ attempted held aloof => ?_
    refine (Program.ensures_perform_bind _ _ _).mpr fun reply marked performed => ?_
    exact pure _ _ (held.marked cast (unpaid.aloof aloof) (by rintro ⟨⟩) performed.performs).1
  exact attempt.sequence fun _ _ held => (bind (minor (Only.emitWebhook _ _)) fun _ => pure _) _ held

theorem submitSignature (r : V1Request) : KeepsStep p (.v1SubmitSignature r) (v1SubmitSignature p r) := by
  intro w held
  unfold v1SubmitSignature verifyTransactionForMerchant sql
  split
  · exact pure _ _ held
  · split
    · dsimp only
      split
      · exact pure _ _ held
      · refine (Program.ensures_perform_bind _ _ _).mpr fun reply read performed => ?_
        obtain rfl := performs_looks rfl performed.performs
        rcases reply with fault | (_ | row)
        · exact pure _ _ held
        · exact pure _ _ held
        · dsimp only
          refine held.past ((Only.replayed _ _ _).mono fun _ => aloof_of_minor) fun response asked held aloof => ?_
          cases response with
          | some content => exact pure _ _ held
          | none =>
              dsimp only
              split
              · exact pure _ _ held
              · next taken =>
                have open_row : row.state ≠ .paid := by
                  intro paid
                  exact taken ⟨by simp [paid], by simp [paid]⟩
                obtain ⟨id, cast, unpaid⟩ := unpaid_of_read performed.performs open_row
                refine (Program.ensures_perform_bind _ _ _).mpr fun reply marked performed => ?_
                obtain ⟨held, unpaid⟩ := held.marked cast (unpaid.aloof aloof) (by rintro ⟨⟩) performed.performs
                refine held.past (Only.perform rfl) fun reply looked held aloof => ?_
                have unpaid := unpaid.aloof aloof
                rcases reply with fault | (_ | data)
                · exact pure _ _ held
                · exact pure _ _ held
                · dsimp only
                  refine held.past ((Only.verify _ _ _ _).mono fun _ => aloof_of_minor)
                    fun verdict verified held aloof => ?_
                  have unpaid := unpaid.aloof aloof
                  cases verdict with
                  | panicked => exact pure _ _ held
                  | rejected text => exact failed held cast unpaid _ _ _ _ _
                  | accepted sender =>
                      refine (finalize_ensures _ _ _ _).sequence fun result finalised ends => ?_
                      rcases held.finalised cast unpaid ends with ⟨fault, rfl, held, unpaid⟩ | ⟨rfl, settles⟩
                      · exact failed held cast unpaid _ _ _ _ _
                      · refine settles.sequence fun _ settled held => ?_
                        exact (bind (minor (Only.getCheckoutStatus _)) fun _ =>
                          bind (minor (Only.remember _ _ _ _)) fun _ =>
                          bind (minor (Only.emitWebhook _ _)) fun _ => pure _) _ held
    · exact pure _ _ held

theorem cancelSession (r : V1Request) : KeepsStep p request (v1CancelPaymentSession p r) := by
  intro w held
  unfold v1CancelPaymentSession sql redis
  split
  · exact pure _ _ held
  · refine (Program.ensures_perform_bind _ _ _).mpr fun reply read performed => ?_
    obtain rfl := performs_looks rfl performed.performs
    rcases reply with fault | (_ | row)
    · exact pure _ _ held
    · exact pure _ _ held
    · dsimp only
      refine held.past ((Only.replayed _ _ _).mono fun _ => aloof_of_minor) fun response asked held aloof => ?_
      cases response with
      | some content => exact pure _ _ held
      | none =>
          dsimp only
          split
          · exact pure _ _ held
          · next open_row =>
            obtain ⟨id, cast, unpaid⟩ := unpaid_of_read performed.performs open_row
            refine (Program.ensures_perform_bind _ _ _).mpr fun reply cancelled performed => ?_
            have held := (held.marked cast (unpaid.aloof aloof) (by rintro ⟨⟩) performed.performs).1
            exact (bind (deletePending _) fun _ => bind (perform rfl) fun _ =>
              bind (minor (Only.remember _ _ _ _)) fun _ => bind (minor (Only.emitWebhook _ _)) fun _ => pure _) _ held

theorem handler (request : Request) : KeepsStep p request (Payknot.handler p request) := by
  unfold Payknot.handler
  cases request with
  | createInvoice r => exact createInvoice r
  | cancelInvoice r => exact cancelInvoice r
  | confirm r => exact confirm r
  | recheck r => exact recheck r
  | manualVerify r => exact manualVerify r
  | detect r => exact detect r
  | v1Create r => exact createSession r
  | v1Status r => exact minor (Only.sessionStatus r)
  | v1WalletInstructions r => exact minor (Only.walletInstructions r)
  | v1SubmitSignature r => exact submitSignature r
  | v1Cancel r => exact cancelSession r
  | v1Verify r => exact minor (Only.verifySession r)
  | v1Qr r => exact minor (Only.qrSession r)
  | v1Detect r => exact detectPayment r
  | createEvent claims r => exact minor (Only.createEvent claims r)
  | updateEvent body eventID ownerEmail => exact minor (Only.updateEvent body eventID ownerEmail)
  | deleteEvent eventID ownerEmail => exact deleteEvent eventID ownerEmail
  | recoverErrorInvoices => exact recoverErrors

end KeepsStep
end Sessions

section Runs
variable {p : Platform} {first last : Service}

/-- The step deletes no event, and no legacy finaliser writes the checkout of a session in it. -/
def sparesSessions (cfg : Service) : ServiceLabel → Bool
  | .step index _ =>
      match cfg.threads[index]? with
      | some ⟨request, _, .call op _⟩ => leavesSessions request cfg.world op
      | _ => true
  | _ => true

/-- After complete requests none of whose statements fails, a session is paid exactly if its
checkout is, and by the same signature, if none of them deletes an event or finalises a
session's reference through the legacy endpoints. -/
theorem session_ledgers_agree (fresh : Fresh first)
    (run : (machine p).Reaches (fun cfg label => oneAtATime cfg label = true ∧
      (stepSucceeds p cfg label = true ∧ sparesSessions cfg label = true)) first last)
    (resting : idle last = true) : ∀ row ∈ last.world.sessions, Agrees last.world row := by
  have held : InStep last.world := by
    refine run.between ?_ (KeepsStep.handler (p := p)) ?_ (by simp [idle, fresh.threads]) ?_ resting
    · intro cfg index choice thread op reply after meets found issues executed
      refine ⟨?_, stepSucceeds_reply meets.1 ⟨⟨choice, rfl⟩, found, issues⟩ executed, choice, trivial, executed⟩
      obtain ⟨next, program⟩ := issues
      obtain ⟨request, log, _⟩ := thread
      cases program
      simpa only [sparesSessions, found] using meets.2
    · intro event w after held occurred
      refine held.of_same (occur_frame .sessions occurred (by decide)) (occur_frame .checkouts occurred (by decide))
        (fun cached member => ⟨cached, occur_cache occurred member, rfl⟩) ?_
      rw [show after.minted = w.minted from occur_frame .minted occurred (by decide)]
      exact List.Subset.refl _
    · constructor
      · simp [fresh.sessions]
      · simp [fresh.sessions]
      · simp [fresh.sessions]
      · simp [fresh.sessions]
      · simp [CheckoutsMinted, fresh.checkouts]
      · simp [fresh.checkouts]
      · simp [HashesMinted, fresh.cache]
  exact held.agrees

end Runs

section Meetup
open Mainnet

/-- A session is created, and paid through its own endpoint. -/
theorem session_ledgers_agree_meetup : ∃ (last : Service) (row : SessionRow), row ∈ last.world.sessions ∧
    row.state = .paid ∧ PaidFor last.world row.reference := by
  obtain ⟨last, run, done⟩ := run_meets (machine platform) (fun cfg label => oneAtATime cfg label &&
      (stepSucceeds platform cfg label && sparesSessions cfg label))
    (.arrive (create "") :: steps 0 4 uuid3 ++ steps 0 5 uuid1 ++ .arrive submit :: steps 1 12 "")
    (opening [landed signature1 [uuid1]])
    (fun last => idle last && last.world.sessions.any (·.state = .paid)) (by decide +kernel)
  simp only [Bool.and_eq_true, List.any_eq_true, decide_eq_true_eq] at run done
  obtain ⟨row, member, paid⟩ := done.2
  have agrees := session_ledgers_agree (opening_fresh _) run done.1 row member
  exact ⟨last, row, member, paid, agrees.paid.mp paid⟩

/-- A v1 session whose payment is confirmed through the legacy endpoint still awaits it. -/
theorem session_ledgers_apart : ∃ last : Service,
    (machine platform).Reaches (fun cfg label => oneAtATime cfg label = true ∧
      stepSucceeds platform cfg label = true) (opening [landed signature1 [uuid1]]) last ∧
    idle last = true ∧ ∃ row ∈ last.world.sessions, row.state = .awaitingPayment ∧ PaidFor last.world row.reference ∧
      ¬ Agrees last.world row := by
  obtain ⟨last, run, done⟩ := run_meets (machine platform)
    (fun cfg label => oneAtATime cfg label && stepSucceeds platform cfg label)
    (.arrive (create "") :: steps 0 4 uuid3 ++ steps 0 5 uuid1 ++ .arrive (confirm uuid1 signatureText1) :: steps 1 8 "")
    (opening [landed signature1 [uuid1]])
    (fun last => idle last && last.world.sessions.any fun row => row.state = .awaitingPayment &&
      last.world.checkouts.any fun checkout => checkout.reference = row.reference && checkout.status = .paid)
    (by decide +kernel)
  simp only [Bool.and_eq_true, List.any_eq_true, decide_eq_true_eq] at run done
  obtain ⟨resting, row, member, awaits, checkout, stored, same, paid⟩ := done
  have paid_for : PaidFor last.world row.reference := ⟨checkout, stored, same, paid⟩
  refine ⟨last, run, resting, row, member, awaits, paid_for, fun agrees => ?_⟩
  have settled := agrees.paid.mpr paid_for
  rw [awaits] at settled
  cases settled

end Meetup
end Payknot
