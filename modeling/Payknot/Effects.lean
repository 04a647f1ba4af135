import Payknot.Service

/-! Which operations touch which part of the world, said once for each part. -/
namespace Payknot
open GoText Interleaving

variable {p : Platform} {choice : Choice} {op : Op} {w after : World} {reply : Reply op}

theorem withSessionId_ok {Value : Type} {id : String} {value : Value}
    {run : String → Except Fault (Value × World)}
    (ran : withSessionId p id run = .ok (value, after)) :
    ∃ canonical, p.uuidText id = some canonical ∧ run canonical = .ok (value, after) := by
  unfold withSessionId at ran
  cases cast : p.uuidText id with
  | none => simp [cast] at ran
  | some canonical =>
      simp only [cast] at ran
      exact ⟨canonical, rfl, ran⟩

theorem runInsertAttempt_ok {attempt : AttemptRow} {value : Unit}
    (ran : runInsertAttempt attempt w = .ok (value, after)) :
    after = { w with attempts := w.attempts ++ [attempt] } := by
  unfold runInsertAttempt at ran
  split at ran
  · cases ran
    rfl
  · cases ran

-- A stored session is the first under its identifiers and under its owner's key.
theorem runInsertSession_ok {session : NewSession} {value : Unit}
    (ran : runInsertSession p session w = .ok (value, after)) :
    ∃ id reference data, p.uuidText session.id = some id ∧
      p.uuidText session.reference = some reference ∧ p.jsonb session.participantData = some data ∧
      (∀ row ∈ w.sessions, row.id ≠ id ∧ row.reference ≠ reference ∧
        ¬ (row.ownerEmail = session.ownerEmail ∧ row.idempotencyKey = session.idempotencyKey)) ∧
      after = { w with sessions := w.sessions ++ [session.row id reference data] } := by
  unfold runInsertSession at ran
  split at ran
  · next id reference data cast castRef parsed =>
    repeat' split at ran
    all_goals first | cases ran; done | skip
    next _ fresh freshRef freshKey _ =>
    cases ran
    refine ⟨id, reference, data, cast, castRef, parsed, ?_, rfl⟩
    simp only [List.any_eq_true, decide_eq_true_eq, Bool.and_eq_true, not_exists, not_and]
      at fresh freshRef freshKey
    intro row member
    exact ⟨fresh row member, freshRef row member, fun same => freshKey row member same.1 same.2⟩
  · cases ran
  · cases ran

theorem mem_updateWhere {Row : Type} {selected : Row → Bool} {set : Row → Row} {rows : List Row}
    {row : Row} (member : row ∈ updateWhere selected set rows) :
    ∃ old ∈ rows, (selected old = true ∧ row = set old) ∨ (selected old = false ∧ row = old) := by
  obtain ⟨old, among, same⟩ := List.mem_map.mp member
  refine ⟨old, among, ?_⟩
  by_cases chosen : selected old = true
  · exact .inl ⟨chosen, by rw [← same, if_pos chosen]⟩
  · exact .inr ⟨by simpa using chosen, by rw [← same, if_neg chosen]⟩

theorem updateWhere_mem {Row : Type} (selected : Row → Bool) (set : Row → Row) {rows : List Row}
    {row : Row} (member : row ∈ rows) :
    (selected row = true ∧ set row ∈ updateWhere selected set rows) ∨
      (selected row = false ∧ row ∈ updateWhere selected set rows) := by
  have image := List.mem_map_of_mem (f := fun row => if selected row then set row else row) member
  by_cases chosen : selected row = true
  · rw [if_pos chosen] at image
    exact .inl ⟨chosen, image⟩
  · rw [if_neg chosen] at image
    exact .inr ⟨by simpa using chosen, image⟩

inductive Part where
  | events | eventIds | invoices | checkouts | checkoutIds | sessions | attempts | records | cache | minted | chain
  | clock
  deriving DecidableEq

def Part.Same : Part → World → World → Prop
  | .events, w, after => after.events = w.events
  | .eventIds, w, after => after.nextEventId = w.nextEventId
  | .invoices, w, after => after.invoices = w.invoices
  | .checkouts, w, after => after.checkouts = w.checkouts
  | .checkoutIds, w, after => after.nextCheckoutId = w.nextCheckoutId
  | .sessions, w, after => after.sessions = w.sessions
  | .attempts, w, after => after.attempts = w.attempts
  | .records, w, after => after.records = w.records
  | .cache, w, after => after.cache = w.cache
  | .minted, w, after => after.minted = w.minted
  | .chain, w, after => after.chain = w.chain
  | .clock, w, after => after.now = w.now

def Sql.writes : Sql → List Part
  | .insertEvent _ _ _ => [.events, .eventIds]
  | .updateEvent _ _ _ => [.events]
  | .deleteEvent _ _ => [.events, .checkouts, .sessions, .attempts]
  | .upsertPaidInvoice _ _ _ _ | .upsertErrorInvoice _ _ _ _ _ | .insertPaidInvoice _ _ _ _
  | .deletePendingInvoice _ => [.invoices]
  | .upsertPaidCheckout _ | .insertPaidCheckout _ => [.checkouts, .checkoutIds]
  | .deletePendingCheckout _ | .markCheckoutPaid _ _ _ | .markCheckoutFailed _ => [.checkouts]
  | .insertSession _ | .setSessionState _ _ | .setSessionPaid _ _ => [.sessions]
  | .insertFailedAttempt _ _ _ | .insertPaidAttempt _ _ => [.attempts]
  | .saveIdempotent _ => [.records]
  | _ => []

def Op.writes : Op → List Part
  | .sql statement => statement.writes
  | .redis (.hGetAll _) => []
  | .redis _ => [.cache]
  | .newUUID => [.minted]
  | _ => []

theorem Part.Same.rfl {part : Part} {w : World} : part.Same w w := by
  cases part <;> exact Eq.refl _

theorem run_frame {statement : Sql} {value : statement.Result}
    (ran : statement.run p w = .ok (value, after)) {part : Part}
    (quiet : part ∉ statement.writes) : part.Same w after := by
  cases statement with
  | insertSession session =>
      simp only [Sql.run, runInsertSession] at ran
      repeat' split at ran
      all_goals cases ran
      cases part <;> first | exact Eq.refl _ | exact absurd quiet (by simp [Sql.writes])
  | insertFailedAttempt id signature errorReason =>
      simp only [Sql.run] at ran
      split at ran
      · cases ran
      · obtain ⟨_, _, ran⟩ := withSessionId_ok ran
        cases runInsertAttempt_ok ran
        cases part <;> first | exact Eq.refl _ | exact absurd quiet (by simp [Sql.writes])
  | insertPaidAttempt id signature =>
      obtain ⟨_, _, ran⟩ := withSessionId_ok ran
      cases runInsertAttempt_ok ran
      cases part <;> first | exact Eq.refl _ | exact absurd quiet (by simp [Sql.writes])
  | selectSession id =>
      obtain ⟨_, _, ran⟩ := withSessionId_ok ran
      cases ran
      exact Part.Same.rfl
  | setSessionState id state =>
      obtain ⟨_, _, ran⟩ := withSessionId_ok ran
      cases ran
      cases part <;> first | exact Eq.refl _ | exact absurd quiet (by simp [Sql.writes])
  | setSessionPaid id signature =>
      obtain ⟨_, _, ran⟩ := withSessionId_ok ran
      cases ran
      cases part <;> first | exact Eq.refl _ | exact absurd quiet (by simp [Sql.writes])
  | _ =>
      simp only [Sql.run, runUpsertPaidCheckout, runInsertPaidCheckout] at ran
      repeat' split at ran
      all_goals cases ran
      all_goals cases part <;> first | exact Eq.refl _ | exact absurd quiet (by simp [Sql.writes])

-- What an operation does not write it leaves as it was.
theorem exec_frame (part : Part) (executed : exec p choice op w = some (reply, after))
    (quiet : part ∉ op.writes) : part.Same w after := by
  cases op with
  | sql statement =>
      rcases exec_sql executed with ⟨_, _, rfl⟩ | ⟨value, _, ran⟩
      · exact Part.Same.rfl
      · exact run_frame ran quiet
  | redis command =>
      rcases exec_redis executed with ⟨_, _, rfl⟩ | ⟨value, _, ran⟩
      · exact Part.Same.rfl
      cases command <;> cases ran <;> cases part <;>
        first | exact Eq.refl _ | exact absurd quiet (by simp [Op.writes])
  | rpc call =>
      rw [(exec_rpc executed).1]
      exact Part.Same.rfl
  | newUUID =>
      simp only [exec] at executed
      split at executed
      · cases executed
        cases part <;> first | exact Eq.refl _ | exact absurd quiet (by simp [Op.writes])
      · cases executed
  | now =>
      cases executed
      exact Part.Same.rfl
  | postWebhook event occurredAt payload =>
      cases executed
      exact Part.Same.rfl

/-- Everything one operation can do to `event_checkouts`. -/
theorem exec_checkouts (executed : exec p choice op w = some (reply, after)) :
    after.checkouts = w.checkouts ∨
    (∃ checkout data, op = .sql (.upsertPaidCheckout checkout) ∧
      p.jsonb checkout.participantData = some data ∧
      (∃ row ∈ w.checkouts, row.reference = checkout.reference) ∧
      after.checkouts = overwriteCheckouts checkout w.now data w.checkouts) ∨
    (∃ checkout data, (op = .sql (.upsertPaidCheckout checkout) ∨
        op = .sql (.insertPaidCheckout checkout)) ∧
      p.jsonb checkout.participantData = some data ∧
      (∀ row ∈ w.checkouts, row.reference ≠ checkout.reference) ∧
      after.checkouts = w.checkouts ++ [checkout.row w.nextCheckoutId w.now data]) ∨
    (∃ reference, op = .sql (.deletePendingCheckout reference) ∧
      after.checkouts = w.checkouts.filter fun row =>
        !(row.reference = reference && row.signature = none && row.status = .pendingPayment)) ∨
    (∃ id signature senderWallet, op = .sql (.markCheckoutPaid id signature senderWallet) ∧
      after.checkouts = markPaidRows id signature senderWallet w.now w.checkouts) ∨
    (∃ id, op = .sql (.markCheckoutFailed id) ∧ after.checkouts = markFailedRows id w.checkouts) ∨
    (∃ id ownerEmail, op = .sql (.deleteEvent id ownerEmail) ∧
      after.checkouts = w.checkouts.filter (·.eventId ≠ id)) := by
  cases op with
  | sql statement =>
      rcases exec_sql executed with ⟨_, _, rfl⟩ | ⟨value, rfl, ran⟩
      · exact .inl rfl
      cases statement with
      | upsertPaidCheckout checkout =>
          simp only [Sql.run, runUpsertPaidCheckout] at ran
          split at ran
          · cases ran
          · next data parsed =>
            split at ran
            · next conflict =>
              cases ran
              refine .inr (.inl ⟨checkout, data, rfl, parsed, ?_, rfl⟩)
              simpa using conflict
            · next fresh =>
              split at ran
              · cases ran
                refine .inr (.inr (.inl ⟨checkout, data, .inl rfl, parsed, ?_, rfl⟩))
                simpa using fresh
              · cases ran
      | insertPaidCheckout checkout =>
          simp only [Sql.run, runInsertPaidCheckout] at ran
          split at ran
          · cases ran
          · next data parsed =>
            split at ran
            · cases ran
            · next fresh =>
              split at ran
              · cases ran
                refine .inr (.inr (.inl ⟨checkout, data, .inr rfl, parsed, ?_, rfl⟩))
                simpa using fresh
              · cases ran
      | deletePendingCheckout reference =>
          cases ran
          exact .inr (.inr (.inr (.inl ⟨reference, rfl, rfl⟩)))
      | markCheckoutPaid id signature senderWallet =>
          cases ran
          exact .inr (.inr (.inr (.inr (.inl ⟨id, signature, senderWallet, rfl, rfl⟩))))
      | markCheckoutFailed id =>
          cases ran
          exact .inr (.inr (.inr (.inr (.inr (.inl ⟨id, rfl, rfl⟩)))))
      | deleteEvent id ownerEmail =>
          simp only [Sql.run] at ran
          split at ran
          · cases ran
            exact .inl rfl
          · cases ran
            exact .inr (.inr (.inr (.inr (.inr (.inr ⟨id, ownerEmail, rfl, rfl⟩)))))
      | _ => exact .inl (exec_frame .checkouts executed (by simp [Op.writes, Sql.writes]))
  | redis command =>
      exact .inl (exec_frame .checkouts executed (by cases command <;> simp [Op.writes]))
  | _ => exact .inl (exec_frame .checkouts executed (by simp [Op.writes]))

theorem checkout_fate (executed : exec p choice op w = some (reply, after)) {row : CheckoutRow}
    (member : row ∈ w.checkouts) :
    row ∈ after.checkouts ∨
    (∃ checkout data, op = .sql (.upsertPaidCheckout checkout) ∧
      row.reference = checkout.reference ∧ row.overwrite checkout w.now data ∈ after.checkouts) ∨
    (∃ signature senderWallet, op = .sql (.markCheckoutPaid row.id signature senderWallet) ∧
      row.markPaid signature senderWallet w.now ∈ after.checkouts) ∨
    (∃ ownerEmail, op = .sql (.deleteEvent row.eventId ownerEmail)) ∨
    row.status ≠ .paid := by
  rcases exec_checkouts executed with unchanged | ⟨checkout, data, rfl, _, _, written⟩ |
    ⟨checkout, data, _, _, _, added⟩ | ⟨reference, _, removed⟩ |
    ⟨id, signature, sender, rfl, marked⟩ | ⟨id, _, marked⟩ | ⟨id, ownerEmail, rfl, removed⟩
  · rw [unchanged]
    exact .inl member
  · rw [written]
    rcases updateWhere_mem (·.reference = checkout.reference)
      (·.overwrite checkout w.now data) member with ⟨chosen, changed⟩ | ⟨_, kept⟩
    · exact .inr (.inl ⟨checkout, data, rfl, by simpa using chosen, changed⟩)
    · exact .inl kept
  · rw [added]
    exact .inl (List.mem_append_left _ member)
  · rw [removed]
    by_cases paid : row.status = .paid
    · exact .inl (List.mem_filter.mpr ⟨member, by simp [paid]⟩)
    · exact .inr (.inr (.inr (.inr paid)))
  · rw [marked]
    rcases updateWhere_mem (·.id = id) (·.markPaid signature sender w.now) member with ⟨chosen, changed⟩ | ⟨_, kept⟩
    · have same : row.id = id := by simpa using chosen
      subst same
      exact .inr (.inr (.inl ⟨signature, sender, rfl, changed⟩))
    · exact .inl kept
  · rw [marked]
    rcases updateWhere_mem (fun row => row.id = id && !row.isPaid)
      (fun row => { row with status := .failed }) member with ⟨chosen, _⟩ | ⟨_, kept⟩
    · have unpaid : row.status ≠ .paid := by
        simp only [CheckoutRow.isPaid, Bool.and_eq_true, Bool.not_eq_true',
          decide_eq_false_iff_not] at chosen
        exact chosen.2
      exact .inr (.inr (.inr (.inr unpaid)))
    · exact .inl kept
  · by_cases same : row.eventId = id
    · subst same
      exact .inr (.inr (.inr (.inl ⟨ownerEmail, rfl⟩)))
    · rw [removed]
      exact .inl (List.mem_filter.mpr ⟨member, by simpa using same⟩)

@[simp] theorem CheckoutRow.overwrite_reference (row : CheckoutRow) (checkout : PaidCheckout)
    (now : Time) (data : Json) : (row.overwrite checkout now data).reference = row.reference := rfl

@[simp] theorem InvoiceRow.overwrite_reference (row proposed : InvoiceRow) :
    (row.overwrite proposed).reference = row.reference := rfl

/-- Overwriting one reference keeps a relation between rows of distinct references, if
the overwritten row still has it to the others. -/
theorem pairwise_overwrite {Related : CheckoutRow → CheckoutRow → Prop} [Std.Symm Related]
    {checkouts : List CheckoutRow} {checkout : PaidCheckout} {now : Time} {data : Json}
    (distinct : ∀ row other, Related row other → row.reference ≠ other.reference)
    (written : ∀ row ∈ checkouts, ∀ other ∈ checkouts, row.reference = checkout.reference →
      Related row other → Related (row.overwrite checkout now data) other)
    (related : checkouts.Pairwise Related) :
    (overwriteCheckouts checkout now data checkouts).Pairwise Related := by
  unfold overwriteCheckouts updateWhere
  rw [List.pairwise_map]
  refine related.imp_of_mem fun {row other} member other_member related => ?_
  by_cases chosen : row.reference = checkout.reference
  · by_cases also : other.reference = checkout.reference
    · exact absurd (chosen.trans also.symm) (distinct row other related)
    · simpa [chosen, also] using written row member other other_member chosen related
  · by_cases also : other.reference = checkout.reference
    · simpa [chosen, also] using
        symm (written other other_member row member also (symm related))
    · simpa [chosen, also] using related

-- After the upsert its reference is paid with its signature, and only so.
theorem exec_upsertPaidCheckout {checkout : PaidCheckout} {value : Unit}
    (executed : exec p choice (.sql (.upsertPaidCheckout checkout)) w = some (.ok value, after)) :
    (∃ row ∈ after.checkouts, row.reference = checkout.reference) ∧
    ∀ row ∈ after.checkouts, row.reference = checkout.reference →
      row.status = .paid ∧ row.signature = some checkout.signature := by
  rcases exec_sql executed with ⟨_, wrong, _⟩ | ⟨_, _, ran⟩
  · cases wrong
  simp only [Sql.run, runUpsertPaidCheckout] at ran
  split at ran
  · cases ran
  · next data parsed =>
    split at ran
    · next conflict =>
      cases ran
      obtain ⟨old, among, same⟩ := List.any_eq_true.mp conflict
      constructor
      · rcases updateWhere_mem (·.reference = checkout.reference)
          (·.overwrite checkout w.now data) among with ⟨_, changed⟩ | ⟨other, _⟩
        · exact ⟨_, changed, by simpa using same⟩
        · rw [other] at same
          cases same
      · intro row found reference
        obtain ⟨before, _, ⟨_, rfl⟩ | ⟨other, rfl⟩⟩ := mem_updateWhere found
        · exact ⟨rfl, rfl⟩
        · exact absurd reference (by simpa using other)
    · next fresh =>
      split at ran
      · cases ran
        constructor
        · exact ⟨_, List.mem_append_right _ (List.mem_singleton_self _), rfl⟩
        · intro row found reference
          rcases List.mem_append.mp found with older | newest
          · exact absurd (List.any_eq_true.mpr ⟨row, older, by simpa using reference⟩) fresh
          · rw [List.mem_singleton] at newest
            subst newest
            exact ⟨rfl, rfl⟩
      · cases ran

theorem mem_upsertInvoiceRows {row new : InvoiceRow} {invoices : List InvoiceRow}
    (other : row.reference ≠ new.reference) :
    row ∈ upsertInvoiceRows new invoices ↔ row ∈ invoices := by
  unfold upsertInvoiceRows
  split
  · constructor
    · intro found
      obtain ⟨old, among, ⟨chosen, rfl⟩ | ⟨_, rfl⟩⟩ := mem_updateWhere found
      · exact absurd (by simpa using chosen) other
      · exact among
    · intro member
      rcases updateWhere_mem (·.reference = new.reference) (·.overwrite new) member with
        ⟨chosen, _⟩ | ⟨_, kept⟩
      · exact absurd (by simpa using chosen) other
      · exact kept
  · rw [List.mem_append, List.mem_singleton]
    constructor
    · rintro (older | rfl)
      · exact older
      · exact absurd rfl other
    · exact Or.inl

theorem upsertInvoiceRows_written {row new : InvoiceRow} {invoices : List InvoiceRow}
    (found : row ∈ upsertInvoiceRows new invoices) (same : row.reference = new.reference) :
    row.status = new.status ∧ row.signature = new.signature := by
  unfold upsertInvoiceRows at found
  split at found
  · obtain ⟨old, _, ⟨_, rfl⟩ | ⟨unchosen, rfl⟩⟩ := mem_updateWhere found
    · exact ⟨rfl, rfl⟩
    · exact absurd same (by simpa using unchosen)
  · next fresh =>
    rcases List.mem_append.mp found with older | newest
    · exact absurd (List.any_eq_true.mpr ⟨row, older, by simpa using same⟩) fresh
    · rw [List.mem_singleton] at newest
      subst newest
      exact ⟨rfl, rfl⟩

/-- Everything one operation can do to `invoice`. -/
theorem exec_invoices (executed : exec p choice op w = some (reply, after)) :
    after.invoices = w.invoices ∨
    (∃ walletAddress reference signature amount,
      op = .sql (.upsertPaidInvoice walletAddress reference signature amount) ∧
      after.invoices = upsertInvoiceRows
        ⟨walletAddress, reference, amount, some signature, .paid, none⟩ w.invoices) ∨
    (∃ walletAddress reference signature amount text,
      op = .sql (.upsertErrorInvoice walletAddress reference signature amount (some text)) ∧
      after.invoices = upsertInvoiceRows
        ⟨walletAddress, reference, amount, some signature, .error, some text⟩ w.invoices) ∨
    (∃ walletAddress reference signature amount,
      op = .sql (.insertPaidInvoice walletAddress reference signature amount) ∧
      (∀ row ∈ w.invoices, row.reference ≠ reference) ∧
      after.invoices =
        w.invoices ++ [⟨walletAddress, reference, amount, some signature, .paid, none⟩]) ∨
    (∃ reference, op = .sql (.deletePendingInvoice reference) ∧
      after.invoices = w.invoices.filter fun row =>
        !(row.reference = reference && row.signature = none && row.status = .pending)) := by
  cases op with
  | sql statement =>
      rcases exec_sql executed with ⟨_, _, rfl⟩ | ⟨value, rfl, ran⟩
      · exact .inl rfl
      cases statement with
      | upsertPaidInvoice walletAddress reference signature amount =>
          cases ran
          exact .inr (.inl ⟨walletAddress, reference, signature, amount, rfl, rfl⟩)
      | upsertErrorInvoice walletAddress reference signature amount errReason =>
          simp only [Sql.run] at ran
          split at ran
          · cases ran
          · next text =>
            cases ran
            exact .inr (.inr (.inl ⟨walletAddress, reference, signature, amount, text, rfl, rfl⟩))
      | insertPaidInvoice walletAddress reference signature amount =>
          simp only [Sql.run] at ran
          split at ran
          · cases ran
          · next fresh =>
            cases ran
            refine .inr (.inr (.inr (.inl
              ⟨walletAddress, reference, signature, amount, rfl, ?_, rfl⟩)))
            simpa using fresh
      | deletePendingInvoice reference =>
          cases ran
          exact .inr (.inr (.inr (.inr ⟨reference, rfl, rfl⟩)))
      | _ => exact .inl (exec_frame .invoices executed (by simp [Op.writes, Sql.writes]))
  | redis command =>
      exact .inl (exec_frame .invoices executed (by cases command <;> simp [Op.writes]))
  | _ => exact .inl (exec_frame .invoices executed (by simp [Op.writes]))

/-- Everything one operation can do to `payment_sessions`. -/
theorem exec_sessions (executed : exec p choice op w = some (reply, after)) :
    after.sessions = w.sessions ∨
    (∃ session id reference data, op = .sql (.insertSession session) ∧
      p.uuidText session.id = some id ∧ p.uuidText session.reference = some reference ∧
      p.jsonb session.participantData = some data ∧
      (∀ row ∈ w.sessions, row.id ≠ id ∧ row.reference ≠ reference ∧
        ¬ (row.ownerEmail = session.ownerEmail ∧ row.idempotencyKey = session.idempotencyKey)) ∧
      after.sessions = w.sessions ++ [session.row id reference data]) ∨
    (∃ id canonical state, op = .sql (.setSessionState id state) ∧
      p.uuidText id = some canonical ∧
      after.sessions =
        updateWhere (·.id = canonical) (fun row => { row with state := state }) w.sessions) ∨
    (∃ id canonical signature, op = .sql (.setSessionPaid id signature) ∧
      p.uuidText id = some canonical ∧
      after.sessions = updateWhere (·.id = canonical)
        (fun row => { row with state := .paid, signature := some signature }) w.sessions) ∨
    (∃ id ownerEmail, op = .sql (.deleteEvent id ownerEmail) ∧
      after.sessions = w.sessions.filter (·.eventId ≠ id)) := by
  cases op with
  | sql statement =>
      rcases exec_sql executed with ⟨_, _, rfl⟩ | ⟨value, rfl, ran⟩
      · exact .inl rfl
      cases statement with
      | insertSession session =>
          obtain ⟨id, reference, data, cast, castRef, parsed, fresh, rfl⟩ := runInsertSession_ok ran
          exact .inr (.inl ⟨session, id, reference, data, rfl, cast, castRef, parsed, fresh, rfl⟩)
      | setSessionState id state =>
          obtain ⟨canonical, cast, ran⟩ := withSessionId_ok ran
          cases ran
          exact .inr (.inr (.inl ⟨id, canonical, state, rfl, cast, rfl⟩))
      | setSessionPaid id signature =>
          obtain ⟨canonical, cast, ran⟩ := withSessionId_ok ran
          cases ran
          exact .inr (.inr (.inr (.inl ⟨id, canonical, signature, rfl, cast, rfl⟩)))
      | deleteEvent id ownerEmail =>
          simp only [Sql.run] at ran
          split at ran
          · cases ran
            exact .inl rfl
          · cases ran
            exact .inr (.inr (.inr (.inr ⟨id, ownerEmail, rfl, rfl⟩)))
      | _ => exact .inl (exec_frame .sessions executed (by simp [Op.writes, Sql.writes]))
  | redis command =>
      exact .inl (exec_frame .sessions executed (by cases command <;> simp [Op.writes]))
  | _ => exact .inl (exec_frame .sessions executed (by simp [Op.writes]))

structure KeepsIdentity (set : SessionRow → SessionRow) : Prop where
  id : ∀ row, (set row).id = row.id
  reference : ∀ row, (set row).reference = row.reference
  ownerEmail : ∀ row, (set row).ownerEmail = row.ownerEmail
  idempotencyKey : ∀ row, (set row).idempotencyKey = row.idempotencyKey

theorem KeepsIdentity.updateWhere {set : SessionRow → SessionRow} (keeps : KeepsIdentity set)
    (selected : SessionRow → Bool) (rows : List SessionRow) :
    ∃ whole, KeepsIdentity whole ∧ Payknot.updateWhere selected set rows = rows.map whole := by
  refine ⟨fun row => if selected row then set row else row, ?_, rfl⟩
  constructor <;> intro row <;> split
  · exact keeps.id row
  · rfl
  · exact keeps.reference row
  · rfl
  · exact keeps.ownerEmail row
  · rfl
  · exact keeps.idempotencyKey row
  · rfl

/-- As long as no event is deleted a session row keeps its identity, and a new one has
an identity of its own. -/
theorem exec_identities (executed : exec p choice op w = some (reply, after))
    (no_delete : ∀ id ownerEmail, op ≠ .sql (.deleteEvent id ownerEmail)) :
    (∃ set, KeepsIdentity set ∧ after.sessions = w.sessions.map set) ∨
    (∃ session id reference data, op = .sql (.insertSession session) ∧
      p.uuidText session.id = some id ∧ p.uuidText session.reference = some reference ∧
      (∀ row ∈ w.sessions, row.id ≠ id ∧ row.reference ≠ reference ∧
        ¬ (row.ownerEmail = session.ownerEmail ∧ row.idempotencyKey = session.idempotencyKey)) ∧
      after.sessions = w.sessions ++ [session.row id reference data]) := by
  rcases exec_sessions executed with unchanged | ⟨session, id, reference, data, rfl, cast, castRef, _,
    fresh, added⟩ | ⟨_, canonical, state, rfl, _, updated⟩ | ⟨_, canonical, signature, rfl, _, updated⟩ |
    ⟨eventId, ownerEmail, rfl, _⟩
  · exact .inl ⟨id, ⟨fun _ => rfl, fun _ => rfl, fun _ => rfl, fun _ => rfl⟩, by simpa using unchanged⟩
  · exact .inr ⟨session, id, reference, data, rfl, cast, castRef, fresh, added⟩
  · rw [updated]
    refine .inl (KeepsIdentity.updateWhere ?_ _ w.sessions)
    exact ⟨fun _ => rfl, fun _ => rfl, fun _ => rfl, fun _ => rfl⟩
  · rw [updated]
    refine .inl (KeepsIdentity.updateWhere ?_ _ w.sessions)
    exact ⟨fun _ => rfl, fun _ => rfl, fun _ => rfl, fun _ => rfl⟩
  · exact absurd rfl (no_delete eventId ownerEmail)

/-- Everything one operation can do to `idempotency_records`. -/
theorem exec_records (executed : exec p choice op w = some (reply, after)) :
    after.records = w.records ∨
    (∃ record, (⟨op, reply⟩ : Entry Reply) = ⟨.sql (.saveIdempotent record), .ok ()⟩ ∧
      after.records = upsertRecord record w.records) := by
  cases op with
  | sql statement =>
      rcases exec_sql executed with ⟨_, _, rfl⟩ | ⟨value, rfl, ran⟩
      · exact .inl rfl
      cases statement with
      | saveIdempotent record =>
          cases ran
          exact .inr ⟨record, rfl, rfl⟩
      | _ => exact .inl (exec_frame .records executed (by simp [Op.writes, Sql.writes]))
  | redis command =>
      exact .inl (exec_frame .records executed (by cases command <;> simp [Op.writes]))
  | _ => exact .inl (exec_frame .records executed (by simp [Op.writes]))

-- A record is an old one or carries the answer being saved under its key.
theorem mem_upsertRecord {record row : IdempotencyRow} {records : List IdempotencyRow}
    (member : row ∈ upsertRecord record records) : row ∈ records ∨ row = record := by
  unfold upsertRecord at member
  dsimp only at member
  split at member
  · obtain ⟨old, among, ⟨chosen, rfl⟩ | ⟨_, rfl⟩⟩ := mem_updateWhere member
    · simp only [Bool.and_eq_true, decide_eq_true_eq] at chosen
      obtain ⟨⟨owner, key⟩, endpoint⟩ := chosen
      refine .inr ?_
      rw [owner, key, endpoint]
    · exact .inl among
  · rcases List.mem_append.mp member with old | new
    · exact .inl old
    · exact .inr (List.mem_singleton.mp new)

/-- Everything one operation can do to `events`. -/
theorem exec_events (executed : exec p choice op w = some (reply, after)) :
    after.events = w.events ∨
    (∃ slug ownerEmail columns, op = .sql (.insertEvent slug ownerEmail columns) ∧
      after.events =
        w.events ++ [⟨Int64.ofNat w.nextEventId, slug, ownerEmail, "active", columns, w.now⟩] ∧
      w.nextEventId < 2 ^ 63 ∧ after.nextEventId = w.nextEventId + 1) ∨
    (∃ id ownerEmail columns, op = .sql (.updateEvent id ownerEmail columns) ∧
      after.events = updateWhere (fun row => row.id = id && row.ownerEmail = ownerEmail)
        (fun row => { row with columns := columns }) w.events) ∨
    (∃ id ownerEmail, op = .sql (.deleteEvent id ownerEmail) ∧ ownedEvents w id ownerEmail ≠ 0 ∧
      after.events = w.events.filter (·.id ≠ id)) := by
  cases op with
  | sql statement =>
      rcases exec_sql executed with ⟨_, _, rfl⟩ | ⟨value, rfl, ran⟩
      · exact .inl rfl
      cases statement with
      | insertEvent slug ownerEmail columns =>
          simp only [Sql.run] at ran
          split at ran
          · cases ran
          · split at ran
            · next numbered =>
              cases ran
              exact .inr (.inl ⟨slug, ownerEmail, columns, rfl, rfl, numbered, rfl⟩)
            · cases ran
      | updateEvent id ownerEmail columns =>
          cases ran
          exact .inr (.inr (.inl ⟨id, ownerEmail, columns, rfl, rfl⟩))
      | deleteEvent id ownerEmail =>
          simp only [Sql.run] at ran
          split at ran
          · cases ran
            exact .inl rfl
          · next owned =>
            cases ran
            exact .inr (.inr (.inr ⟨id, ownerEmail, rfl, owned, rfl⟩))
      | _ => exact .inl (exec_frame .events executed (by simp [Op.writes, Sql.writes]))
  | redis command =>
      exact .inl (exec_frame .events executed (by cases command <;> simp [Op.writes]))
  | _ => exact .inl (exec_frame .events executed (by simp [Op.writes]))

-- Everything one operation can do to the cache.
theorem exec_cache (executed : exec p choice op w = some (reply, after)) :
    after.cache = w.cache ∨
    (∃ key hash, op = .redis (.hSet key hash) ∧
      after.cache = ⟨key, hash, (w.cache.find? (·.key = key)).bind (·.deadline)⟩ ::
        w.cache.filter (·.key ≠ key)) ∨
    (∃ key ttl, op = .redis (.expire key ttl) ∧
      after.cache = setDeadline key (w.now + ttl) w.cache) ∨
    (∃ key, op = .redis (.del key) ∧ after.cache = w.cache.filter (·.key ≠ key)) := by
  cases op with
  | sql statement =>
      exact .inl (exec_frame .cache executed
        (by cases statement <;> simp [Op.writes, Sql.writes]))
  | redis command =>
      rcases exec_redis executed with ⟨_, _, rfl⟩ | ⟨value, rfl, ran⟩
      · exact .inl rfl
      cases command with
      | hSet key hash =>
          cases ran
          exact .inr (.inl ⟨key, hash, rfl, rfl⟩)
      | expire key ttl =>
          cases ran
          exact .inr (.inr (.inl ⟨key, ttl, rfl, rfl⟩))
      | hGetAll key =>
          cases ran
          exact .inl rfl
      | del key =>
          cases ran
          exact .inr (.inr (.inr ⟨key, rfl, rfl⟩))
  | _ => exact .inl (exec_frame .cache executed (by simp [Op.writes]))

-- The chain and the clock move by themselves only.
theorem Op.writes_outside (op : Op) : Part.chain ∉ op.writes ∧ Part.clock ∉ op.writes := by
  cases op with
  | sql statement => cases statement <;> simp [Op.writes, Sql.writes]
  | redis command => cases command <;> simp [Op.writes]
  | _ => simp [Op.writes]

theorem exec_chain (executed : exec p choice op w = some (reply, after)) :
    after.chain = w.chain :=
  exec_frame .chain executed op.writes_outside.1

theorem exec_now (executed : exec p choice op w = some (reply, after)) : after.now = w.now :=
  exec_frame .clock executed op.writes_outside.2

theorem exec_minted (executed : exec p choice op w = some (reply, after)) :
    after.minted = w.minted ∨ (op = .newUUID ∧ choice.uuid ∉ w.minted ∧
      p.uuidText choice.uuid = some choice.uuid ∧ after.minted = choice.uuid :: w.minted) := by
  cases op with
  | sql statement =>
      exact .inl (exec_frame .minted executed
        (by cases statement <;> simp [Op.writes, Sql.writes]))
  | redis command =>
      exact .inl (exec_frame .minted executed (by cases command <;> simp [Op.writes]))
  | newUUID =>
      simp only [exec] at executed
      split at executed
      · next fresh =>
        cases executed
        exact .inr ⟨rfl, fresh.1, fresh.2.1, rfl⟩
      · cases executed
  | _ => exact .inl (exec_frame .minted executed (by simp [Op.writes]))

theorem exec_newUUID {uuid : String}
    (executed : exec p choice .newUUID w = some (uuid, after)) :
    uuid ∉ w.minted ∧ p.uuidText uuid = some uuid ∧ p.uuidParse uuid = true ∧
      after = { w with minted := uuid :: w.minted } := by
  simp only [exec] at executed
  split at executed
  · next fresh =>
    cases executed
    exact ⟨fresh.1, fresh.2.1, fresh.2.2, rfl⟩
  · cases executed

theorem cached_of_read {key : String} {hash : InvoiceHash}
    (executed : exec p choice (.redis (.hGetAll key)) w = some (.ok (some hash), after)) :
    ∃ cached ∈ w.cache, cached.key = key := by
  rcases exec_redis executed with ⟨_, wrong, _⟩ | ⟨value, same, ran⟩
  · cases wrong
  · cases same
    simp only [Redis.run, Except.ok.injEq, Prod.mk.injEq, Option.map_eq_some_iff] at ran
    obtain ⟨⟨cached, found, _⟩, _⟩ := ran
    exact ⟨cached, List.mem_of_find?_eq_some found, by simpa using List.find?_some found⟩

theorem updateWhere_ids {selected : CheckoutRow → Bool} {set : CheckoutRow → CheckoutRow}
    (same : ∀ row, (set row).id = row.id) (rows : List CheckoutRow) :
    ((updateWhere selected set rows).map (·.id)).Sublist (rows.map (·.id)) := by
  unfold updateWhere
  rw [List.map_map]
  have ids : rows.map ((·.id) ∘ fun row => if selected row then set row else row) = rows.map (·.id) := by
    refine List.map_congr_left fun row _ => ?_
    simp only [Function.comp_apply]
    split
    · exact same row
    · rfl
  rw [ids]

/-- A stored paid checkout is in its row's place or a new row with the sequence's next id. -/
theorem exec_storesCheckout {checkout : PaidCheckout}
    (stores : op = .sql (.upsertPaidCheckout checkout) ∨ op = .sql (.insertPaidCheckout checkout))
    (executed : exec p choice op w = some (reply, after)) :
    after = w ∨ (∃ data, after = { w with checkouts := overwriteCheckouts checkout w.now data w.checkouts }) ∨
      ∃ data, after = w.appendCheckout checkout data := by
  rcases stores with rfl | rfl
  · rcases exec_sql executed with ⟨_, _, rfl⟩ | ⟨_, _, ran⟩
    · exact .inl rfl
    simp only [Sql.run, runUpsertPaidCheckout] at ran
    repeat' split at ran
    all_goals cases ran
    · exact .inr (.inl ⟨_, rfl⟩)
    · exact .inr (.inr ⟨_, rfl⟩)
  · rcases exec_sql executed with ⟨_, _, rfl⟩ | ⟨_, _, ran⟩
    · exact .inl rfl
    simp only [Sql.run, runInsertPaidCheckout] at ran
    repeat' split at ran
    all_goals cases ran
    exact .inr (.inr ⟨_, rfl⟩)

/-- No operation changes the id of a checkout, and a new one is the sequence's next. -/
theorem exec_checkoutIds (executed : exec p choice op w = some (reply, after)) :
    (after.nextCheckoutId = w.nextCheckoutId ∧
      (after.checkouts.map (·.id)).Sublist (w.checkouts.map (·.id))) ∨
    (after.nextCheckoutId = w.nextCheckoutId + 1 ∧
      after.checkouts.map (·.id) = w.checkouts.map (·.id) ++ [w.nextCheckoutId]) := by
  have same (quiet : Part.checkoutIds ∉ op.writes) : after.nextCheckoutId = w.nextCheckoutId :=
    exec_frame .checkoutIds executed quiet
  have stored {checkout : PaidCheckout}
      (stores : op = .sql (.upsertPaidCheckout checkout) ∨ op = .sql (.insertPaidCheckout checkout)) :
      (after.nextCheckoutId = w.nextCheckoutId ∧
        (after.checkouts.map (·.id)).Sublist (w.checkouts.map (·.id))) ∨
      (after.nextCheckoutId = w.nextCheckoutId + 1 ∧
        after.checkouts.map (·.id) = w.checkouts.map (·.id) ++ [w.nextCheckoutId]) := by
    rcases exec_storesCheckout stores executed with rfl | ⟨data, rfl⟩ | ⟨data, rfl⟩
    · exact .inl ⟨rfl, List.Sublist.refl _⟩
    · exact .inl ⟨rfl, updateWhere_ids (by intro row; rfl) _⟩
    · exact .inr ⟨rfl, by simp [World.appendCheckout, PaidCheckout.row]⟩
  rcases exec_checkouts executed with unchanged | ⟨checkout, _, rfl, _⟩ | ⟨checkout, _, issued, _⟩ |
    ⟨_, rfl, removed⟩ | ⟨_, _, _, rfl, marked⟩ | ⟨_, rfl, marked⟩ | ⟨_, _, rfl, removed⟩
  · by_cases quiet : Part.checkoutIds ∈ op.writes
    · have stores : ∃ checkout, op = .sql (.upsertPaidCheckout checkout) ∨ op = .sql (.insertPaidCheckout checkout) := by
        cases op with
        | sql statement => cases statement <;> simp [Op.writes, Sql.writes] at quiet ⊢
        | redis command => cases command <;> simp [Op.writes] at quiet
        | _ => simp [Op.writes] at quiet
      obtain ⟨checkout, stores⟩ := stores
      exact stored stores
    · exact .inl ⟨same quiet, by rw [unchanged]⟩
  · exact stored (.inl rfl)
  · exact stored issued
  · exact .inl ⟨same (by simp [Op.writes, Sql.writes]), by rw [removed]; exact List.filter_sublist.map _⟩
  · refine .inl ⟨same (by simp [Op.writes, Sql.writes]), ?_⟩
    rw [marked]
    exact updateWhere_ids (by intro row; rfl) _
  · refine .inl ⟨same (by simp [Op.writes, Sql.writes]), ?_⟩
    rw [marked]
    exact updateWhere_ids (by intro row; rfl) _
  · exact .inl ⟨same (by simp [Op.writes, Sql.writes]), by rw [removed]; exact List.filter_sublist.map _⟩

section Occurring
variable {event : WorldEvent}

theorem occur_cases (occurred : occur event w = some after) :
    (∃ elapsed : Nat, event = .tick elapsed ∧ after = { w with
      now := w.now + elapsed
      cache := w.cache.filter fun cached =>
        cached.deadline.all fun deadline => w.now + elapsed < deadline }) ∨
    (∃ landed, event = .land landed ∧ (∀ earlier ∈ w.chain, earlier.signature ≠ landed.signature) ∧
      after = { w with chain := landed :: w.chain }) := by
  cases event with
  | tick elapsed =>
      cases occurred
      exact .inl ⟨elapsed, rfl, rfl⟩
  | land landed =>
      simp only [occur] at occurred
      split at occurred
      · cases occurred
      · next unknown =>
        cases occurred
        exact .inr ⟨landed, rfl, by simpa using unknown, rfl⟩

theorem occur_frame (part : Part) (occurred : occur event w = some after)
    (quiet : part ∉ [Part.cache, .chain, .clock]) : part.Same w after := by
  rcases occur_cases occurred with ⟨_, _, rfl⟩ | ⟨_, _, _, rfl⟩ <;> cases part <;>
    first | exact Eq.refl _ | exact absurd quiet (by decide)

theorem occur_chain (occurred : occur event w = some after) : w.chain ⊆ after.chain := by
  rcases occur_cases occurred with ⟨_, _, rfl⟩ | ⟨_, _, _, rfl⟩
  · exact List.Subset.refl _
  · exact List.subset_cons_self _ _

theorem occur_cache (occurred : occur event w = some after) {cached : CachedInvoice}
    (member : cached ∈ after.cache) : cached ∈ w.cache := by
  rcases occur_cases occurred with ⟨_, _, rfl⟩ | ⟨_, _, _, rfl⟩
  · exact (List.mem_filter.mp member).1
  · exact member

end Occurring

end Payknot
