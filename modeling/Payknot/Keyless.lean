import Payknot.Serving
import Payknot.Provenance
import Payknot.Idempotency

/-! Sessions created without an Idempotency-Key. The header's absence is stored as the
empty text, which the unique index over owner and key takes for a key like any other. -/
namespace Payknot
open GoText Interleaving Machine

variable {p : Platform} {init cfg after : Service} {label : ServiceLabel}
variable {w w' : World} {r : V1CreateRequest}

def eventFor (w : World) (req : V1CreatePaymentSessionRequest) : Option EventRow :=
  if req.eventID > 0 then w.events.find? fun row => row.id = req.eventID && row.status = "active"
  else w.events.find? fun row => row.slug = trimSpace req.slug && row.status = "active"

/-- A creation without a key that passes the event, expiry, participant, e-mail and
method checks. -/
structure PassesFor (p : Platform) (w : World) (r : V1CreateRequest)
    (req : V1CreatePaymentSessionRequest) (event : EventRow) : Prop where
  post : r.method = .post
  body : r.body = some req
  keyless : trimSpace r.idempotencyKey = ""
  found : eventFor w req = some event
  open_until : ¬ event.columns.checkoutExpiresAt < w.now
  participant : validateParticipantData p
    (decodeParticipantFields p event.columns.participantFormSchema) req.participantData = .ok ()
  email : normalizeEmail p req.participantData = "" ∨ normalizeEmail p req.participantData = "<nil>" ∨
    paidEmailRow p event.id none (normalizeEmail p req.participantData) w.checkouts = false
  method : (trimSpace req.paymentMethod = "wallet" ∧
      (decodePaymentMethods event.columns.paymentMethods).wallet = true ∧
      isValidWalletAddress p (trimSpace req.walletAddress) = true) ∨
    (trimSpace req.paymentMethod = "qr" ∧
      (decodePaymentMethods event.columns.paymentMethods).qr = true)

def Passes (p : Platform) (w : World) (r : V1CreateRequest) : Prop :=
  ∃ req event, PassesFor p w r req event

def participantOf (r : V1CreateRequest) : Option Object := r.body.bind (·.participantData)

/-- The texts of the row to be that the checks have not matched with a fixed one. -/
def textsOf (p : Platform) (w : World) (r : V1CreateRequest) : List String :=
  [sessionOwner r.claims, ((r.body.map fun req => trimSpace req.walletAddress).getD ""), usdcMintAddress p,
    (((r.body.bind (eventFor w)).map fun event => event.columns.merchantWallet).getD "")]

/-- No keyless session of this owner is stored, and the database takes the participant
data for JSON and the texts for text. -/
def Free (p : Platform) (w : World) (r : V1CreateRequest) : Prop :=
  (∀ row ∈ w.sessions, row.keyed (sessionOwner r.claims) "" = false) ∧
    (p.jsonb (p.marshalMap (participantOf r))).isSome = true ∧ (textsOf p w r).all storable = true

def SessionsMinted (w : World) : Prop :=
  ∀ row ∈ w.sessions, row.id ∈ w.minted ∧ row.reference ∈ w.minted

/-- The request has created a session of its own, with fresh identifiers. -/
def Created (before after : World) (answer : Answer) : Prop :=
  ∃ resp row, answer = .responded 200 (.session resp) ∧ row.id = resp.sessionID ∧
    row.reference = resp.reference ∧
    (∀ old ∈ before.sessions, old.id ≠ row.id ∧ old.reference ≠ row.reference) ∧
    after.sessions = before.sessions ++ [row]

structure Outcome (p : Platform) (w : World) (r : V1CreateRequest) (answer : Answer) (after : World) :
    Prop where
  events : after.events = w.events
  checkouts : after.checkouts = w.checkouts
  now : after.now = w.now
  minted : SessionsMinted after
  stored : Free p w r → Created w after answer ∧ ∃ row, row.keyed (sessionOwner r.claims) "" = true ∧
    after.sessions = w.sessions ++ [row]
  refused : ¬ Free p w r → answer = httpError "Failed to persist session" 500

theorem select_ensures (req : V1CreatePaymentSessionRequest) :
    (selectSessionEvent req.eventID (trimSpace req.slug)).Ensures (Sound p)
      (fun result after => result = .ok (eventFor w req) ∧ after = w) w := by
  unfold selectSessionEvent eventFor
  split
  · refine (Program.ensures_call _ _ _).mpr fun reply after performed => ?_
    cases sound_sql performed
    exact (Program.ensures_ret _ _).mpr ⟨rfl, rfl⟩
  · refine (Program.ensures_call _ _ _).mpr fun reply after performed => ?_
    cases sound_sql performed
    exact (Program.ensures_ret _ _).mpr ⟨rfl, rfl⟩

theorem available_ensures {eventID : Int64} {data : Option Object}
    (free : normalizeEmail p data = "" ∨ normalizeEmail p data = "<nil>" ∨
      paidEmailRow p eventID none (normalizeEmail p data) w.checkouts = false) :
    (ensureParticipantEmailAvailable p eventID data).Ensures (Sound p)
      (fun result after => result = .ok () ∧ after = w) w := by
  unfold ensureParticipantEmailAvailable checkEmail
  generalize normalizeEmail p data = email at free
  dsimp only
  split
  · exact (Program.ensures_pure _ _).mpr ⟨rfl, rfl⟩
  · next asks =>
    have unpaid : paidEmailRow p eventID none email w.checkouts = false := by
      rcases free with blank | missing | unpaid
      · exact absurd (.inl blank) asks
      · exact absurd (.inr missing) asks
      · exact unpaid
    apply ensures_sql
    simp only [settle, Sql.run, unpaid]
    exact (Program.ensures_pure _ _).mpr ⟨rfl, rfl⟩

theorem storable_empty : storable "" = true := rfl

-- The database's verdict on a keyless row whose identifiers are fresh.
theorem runInsertSession_keyless (session : NewSession)
    (id : p.uuidText session.id = some session.id)
    (reference : p.uuidText session.reference = some session.reference)
    (new : ∀ row ∈ w.sessions, row.id ≠ session.id ∧ row.reference ≠ session.reference)
    (event : w.events.any (·.id = session.eventId) = true) (keyless : session.idempotencyKey = "")
    {plain : Bool} (texts : session.texts.all storable = plain) :
    ((∀ row ∈ w.sessions, row.keyed session.ownerEmail "" = false) → ∀ data,
      p.jsonb session.participantData = some data → plain = true →
      runInsertSession p session w =
        .ok ((), { w with sessions := w.sessions ++ [session.row session.id session.reference data] })) ∧
    (¬ ((∀ row ∈ w.sessions, row.keyed session.ownerEmail "" = false) ∧
        (p.jsonb session.participantData).isSome = true ∧ plain = true) →
      ∃ fault, runInsertSession p session w = .error fault) := by
  have new_id : w.sessions.any (·.id = session.id) = false := by
    simpa using fun row member => (new row member).1
  have new_reference : w.sessions.any (·.reference = session.reference) = false := by
    simpa using fun row member => (new row member).2
  have unkeyed : (w.sessions.any fun row => row.ownerEmail = session.ownerEmail &&
      row.idempotencyKey = session.idempotencyKey) = false ↔
        ∀ row ∈ w.sessions, row.keyed session.ownerEmail "" = false := by
    simp [SessionRow.keyed, keyless]
  unfold runInsertSession
  simp only [id, reference, texts]
  cases p.jsonb session.participantData with
  | none =>
      refine ⟨fun _ data parsed => ?_, fun _ => ⟨_, rfl⟩⟩
      cases parsed
  | some data =>
      dsimp only
      rw [new_id, new_reference, event]
      constructor
      · rintro free _ ⟨⟩ rfl
        rw [unkeyed.mpr free]
        rfl
      · intro taken
        cases plain with
        | false => exact ⟨_, rfl⟩
        | true =>
            have keyed : (w.sessions.any fun row => row.ownerEmail = session.ownerEmail &&
                row.idempotencyKey = session.idempotencyKey) = true := by
              rw [← Bool.not_eq_false, unkeyed]
              exact fun free => taken ⟨free, rfl, rfl⟩
            rw [keyed]
            exact ⟨_, rfl⟩

theorem session_ensures {req : V1CreatePaymentSessionRequest} {event : EventRow}
    (body : r.body = some req) (found : eventFor w req = some event) (minted : SessionsMinted w)
    {paymentMethod : String} (plain : storable paymentMethod = true) :
    (v1CreatePaymentSession.session p event (sessionOwner r.claims) "" (trimSpace req.walletAddress) paymentMethod
      req.participantData).Ensures (Sound p) (Outcome p w r) w := by
  have present : event ∈ w.events := by
    unfold eventFor at found
    split at found <;> exact List.mem_of_find?_eq_some found
  have data_of : participantOf r = req.participantData := by simp [participantOf, body]
  have texts_of : textsOf p w r = [sessionOwner r.claims, trimSpace req.walletAddress, usdcMintAddress p,
      event.columns.merchantWallet] := by simp [textsOf, body, found]
  unfold v1CreatePaymentSession.session
  refine ensures_newUUID fun session fresh_id canonical_id => ?_
  refine ensures_newUUID fun reference fresh_reference canonical_reference => ?_
  refine ensures_timeNow (ensures_hSet fun _ => ensures_expire fun cache => ?_)
  have new : ∀ row ∈ w.sessions, row.id ≠ session ∧ row.reference ≠ reference := by
    intro row member
    constructor
    · rintro rfl
      exact fresh_id (minted row member).1
    · rintro rfl
      exact fresh_reference (List.mem_cons_of_mem _ (minted row member).2)
  have stored : w.events.any (·.id = event.id) = true :=
    List.any_eq_true.mpr ⟨event, present, by simp⟩
  apply ensures_sql
  dsimp only at stored ⊢
  have texts : (NewSession.texts ⟨session, event.id, sessionOwner r.claims, p.marshalMap req.participantData,
      trimSpace req.walletAddress, paymentMethod, reference, event.columns.amountUSDC, usdcMintAddress p,
      event.columns.merchantWallet, "", w.now + 20 * minute⟩).all storable = (textsOf p w r).all storable := by
    rw [texts_of]
    simp [NewSession.texts, plain, storable_empty]
  obtain ⟨accepted, rejected⟩ := runInsertSession_keyless (p := p)
    (w := { w with minted := reference :: session :: w.minted, cache := cache })
    _ canonical_id canonical_reference new stored rfl texts
  by_cases free : Free p w r
  · obtain ⟨unkeyed, json, storables⟩ := id free
    rw [data_of] at json
    obtain ⟨data, parsed⟩ := Option.isSome_iff_exists.mp json
    simp only [Sql.run, accepted unkeyed data parsed storables, settle]
    rw [Program.ensures_bind, remember, if_neg (not_not.mpr rfl), Program.ensures_pure]
    apply ensures_webhook
    rw [Program.ensures_pure]
    refine ⟨rfl, rfl, rfl, ?_, fun _ => ?_, fun refused => absurd free refused⟩
    · intro row member
      rcases List.mem_append.mp member with old | new
      · have drawn := minted row old
        exact ⟨List.mem_cons_of_mem _ (List.mem_cons_of_mem _ drawn.1),
          List.mem_cons_of_mem _ (List.mem_cons_of_mem _ drawn.2)⟩
      · rw [List.mem_singleton.mp new]
        exact ⟨List.mem_cons_of_mem _ List.mem_cons_self, List.mem_cons_self⟩
    · exact ⟨⟨_, _, rfl, rfl, rfl, new, rfl⟩, _, by simp [SessionRow.keyed, NewSession.row], rfl⟩
  · have refused := free
    unfold Free at refused
    rw [data_of] at refused
    obtain ⟨fault, ran⟩ := rejected refused
    simp only [Sql.run, ran, settle, Program.ensures_pure]
    refine ⟨rfl, rfl, rfl, ?_, fun granted => absurd granted free, fun _ => rfl⟩
    intro row member
    have drawn := minted row member
    exact ⟨List.mem_cons_of_mem _ (List.mem_cons_of_mem _ drawn.1),
      List.mem_cons_of_mem _ (List.mem_cons_of_mem _ drawn.2)⟩

theorem creation_ensures (passes : Passes p w r) (minted : SessionsMinted w) :
    (v1CreatePaymentSession p r).Ensures (Sound p) (Outcome p w r) w := by
  obtain ⟨req, event, passes⟩ := passes
  unfold v1CreatePaymentSession
  simp only [passes.post, passes.body, passes.keyless, replayed]
  rw [if_neg (not_not.mpr rfl), if_neg (not_not.mpr rfl), Program.ensures_bind, Program.ensures_pure]
  refine (select_ensures req).sequence ?_
  rintro _ _ ⟨rfl, rfl⟩
  rw [passes.found]
  apply ensures_timeNow
  rw [if_neg passes.open_until, passes.participant]
  refine (available_ensures passes.email).sequence ?_
  rintro _ _ ⟨rfl, rfl⟩
  have served (method : String) (plain : storable method = true) :=
    session_ensures (p := p) passes.body passes.found minted plain
  rcases passes.method with ⟨wallet, enabled, valid⟩ | ⟨qr, enabled⟩
  · simp only [wallet, enabled, valid]
    simpa using served "wallet" (by decide)
  · simp only [qr, enabled]
    simpa using served "qr" (by decide)

/-- What a creation finds of the earlier ones: the events, the checkouts and the clock. -/
theorem Passes.later (passes : Passes p w r) (events : w'.events = w.events)
    (checkouts : w'.checkouts = w.checkouts) (now : w'.now = w.now) : Passes p w' r := by
  obtain ⟨req, event, passes⟩ := passes
  refine ⟨req, event, passes.post, passes.body, passes.keyless, ?_, ?_, passes.participant, ?_,
    passes.method⟩
  · rw [eventFor, events]
    exact passes.found
  · rw [now]
    exact passes.open_until
  · rw [checkouts]
    exact passes.email

def AllCreated : World → List (Answer × World) → Prop
  | _, [] => True
  | w, (answer, after) :: rest => Created w after answer ∧ AllCreated after rest

def ownerOf (r : V1CreateRequest) : String := sessionOwner r.claims

def Independent (p : Platform) (w : World) (requests : List V1CreateRequest) : Prop :=
  (requests.map ownerOf).Nodup ∧ ∀ r ∈ requests, Free p w r

theorem independent_cons {rest : List V1CreateRequest} :
    Independent p w (r :: rest) ↔ Free p w r ∧ ownerOf r ∉ rest.map ownerOf ∧ Independent p w rest := by
  unfold Independent
  rw [List.map_cons, List.nodup_cons, List.forall_mem_cons]
  tauto

-- After a keyless session has been stored, its owner is no longer free.
theorem independent_after {row : SessionRow} {rest : List V1CreateRequest} (events : w'.events = w.events)
    (keyed : row.keyed (ownerOf r) "" = true) (stored : w'.sessions = w.sessions ++ [row]) :
    Independent p w' rest ↔ ownerOf r ∉ rest.map ownerOf ∧ Independent p w rest := by
  obtain ⟨owner, keyless⟩ := keyed_iff.mp keyed
  have free_iff (other : V1CreateRequest) : Free p w' other ↔ Free p w other ∧ ownerOf other ≠ ownerOf r := by
    have texts : textsOf p w' other = textsOf p w other := by
      have found : eventFor w' = eventFor w := funext fun req => by rw [eventFor, eventFor, events]
      rw [textsOf, textsOf, found]
    unfold Free
    rw [stored, texts]
    simp only [List.forall_mem_append, List.forall_mem_singleton]
    have kept : row.keyed (sessionOwner other.claims) "" = false ↔ ownerOf other ≠ ownerOf r := by
      simp [SessionRow.keyed, owner, keyless, ownerOf, eq_comm]
    rw [kept]
    tauto
  unfold Independent
  constructor
  · rintro ⟨distinct, free⟩
    refine ⟨?_, distinct, fun other member => ((free_iff other).mp (free other member)).1⟩
    intro among
    obtain ⟨other, member, same⟩ := List.mem_map.mp among
    exact ((free_iff other).mp (free other member)).2 same
  · rintro ⟨alone, distinct, free⟩
    refine ⟨distinct, fun other member => (free_iff other).mpr ⟨free other member, ?_⟩⟩
    intro same
    exact alone (List.mem_map.mpr ⟨other, member, same⟩)

theorem all_created_iff {requests : List V1CreateRequest} {trace : List (Answer × World)}
    (minted : SessionsMinted w) (passes : ∀ r ∈ requests, Passes p w r)
    (served : (machine p).Serves up w (requests.map .v1Create) trace) :
    AllCreated w trace ↔ Independent p w requests := by
  induction requests generalizing w trace with
  | nil =>
      cases served
      simp [AllCreated, Independent]
  | cons r rest ih =>
      obtain _ | @⟨_, _, answer, middle, _, later, runs, served⟩ := served
      have outcome := (creation_ensures (passes r List.mem_cons_self) minted).runs runs
      have next := ih outcome.minted (fun other member =>
        (passes other (List.mem_cons_of_mem _ member)).later outcome.events outcome.checkouts outcome.now)
        served
      rw [AllCreated, next, independent_cons]
      by_cases free : Free p w r
      · obtain ⟨created, row, keyed, stored⟩ := outcome.stored free
        rw [independent_after (r := r) outcome.events keyed stored]
        tauto
      · have failed : ¬ Created w middle answer := by
          rintro ⟨_, _, answered, _⟩
          rw [outcome.refused free] at answered
          cases answered
        tauto

section Reachable

/-- A drawn identifier is remembered, in the form the columns give back. -/
def Drawn (p : Platform) (w : World) : Entry Reply → Prop
  | ⟨.newUUID, uuid⟩ => uuid ∈ w.minted ∧ p.uuidText uuid = some uuid
  | _ => True

theorem drawn_next (drawn : Seen (Drawn p cfg.world) cfg)
    (stepped : (machine p).next cfg label = some after) : Seen (Drawn p after.world) after := by
  refine seen_next drawn stepped (fun entry told => ?_) ?_
  · unfold Drawn at told ⊢
    split
    · exact ⟨(next_grows stepped).2 told.1, told.2⟩
    · trivial
  · intro thread _ choice op reply _ executed
    unfold Drawn
    split
    · next uuid heard =>
      cases heard
      obtain ⟨_, canonical, _, same⟩ := exec_newUUID executed
      rw [same]
      exact ⟨List.mem_cons_self, canonical⟩
    · trivial

theorem sessionsMinted_next (warranted : Warranted p cfg) (drawn : Seen (Drawn p cfg.world) cfg)
    (minted : SessionsMinted cfg.world) (stepped : (machine p).next cfg label = some after) :
    SessionsMinted after.world := by
  have grown := (next_grows stepped).2
  have old {row : SessionRow} (member : row ∈ cfg.world.sessions) :
      row.id ∈ after.world.minted ∧ row.reference ∈ after.world.minted :=
    ⟨grown (minted row member).1, grown (minted row member).2⟩
  intro row member
  rcases next_cases stepped with ⟨request, rfl, rfl⟩ | ⟨event, world, rfl, occurred, rfl⟩ |
    ⟨index, choice, thread, op, rest, reply, world, rfl, at_index, program, executed, same⟩
  · exact old member
  · have unchanged := occur_frame .sessions occurred (by decide)
    rw [unchanged] at member
    exact old member
  · have kept (set : SessionRow → SessionRow) (keeps : ∀ row, (set row).id = row.id ∧
        (set row).reference = row.reference) (selected : SessionRow → Bool)
        (among : row ∈ updateWhere selected set cfg.world.sessions) :
        row.id ∈ after.world.minted ∧ row.reference ∈ after.world.minted := by
      obtain ⟨before, present, ⟨_, rfl⟩ | ⟨_, rfl⟩⟩ := mem_updateWhere among
      · rw [(keeps before).1, (keeps before).2]
        exact old present
      · exact old present
    rw [same] at member
    rcases exec_sessions executed with unchanged | ⟨session, id, reference, data, rfl, cast, castRef, _, _,
      added⟩ | ⟨_, _, state, rfl, _, updated⟩ | ⟨_, _, signature, rfl, _, updated⟩ | ⟨_, _, rfl, removed⟩
    · rw [unchanged] at member
      exact old member
    · rw [added] at member
      rcases List.mem_append.mp member with before | new
      · exact old before
      · -- Both identifiers were drawn before the row is stored.
        have present := List.mem_of_getElem? at_index
        obtain ⟨_, _, _, drew, _, _, _, drew_id, _⟩ :=
          warranted.issues present ⟨rest, program⟩
        have minted_id := drawn thread present _ drew_id
        have minted_reference := drawn thread present _ drew
        rw [minted_id.2, Option.some.injEq] at cast
        rw [minted_reference.2, Option.some.injEq] at castRef
        subst cast castRef
        rw [List.mem_singleton.mp new]
        exact ⟨grown minted_id.1, grown minted_reference.1⟩
    · rw [updated] at member
      refine kept _ ?_ _ member
      exact fun _ => ⟨rfl, rfl⟩
    · rw [updated] at member
      refine kept _ ?_ _ member
      exact fun _ => ⟨rfl, rfl⟩
    · rw [removed] at member
      exact old (List.mem_filter.mp member).1

theorem sessionsMinted_reached (start : init.threads = []) (no_sessions : init.world.sessions = [])
    (run : (machine p).Reaches anyStep init cfg) : SessionsMinted cfg.world := by
  have held := run.invariant
    (fun cfg => Warranted p cfg ∧ Seen (Drawn p cfg.world) cfg ∧ SessionsMinted cfg.world)
    ⟨warranted_start start, by simp [Seen, start], by simp [SessionsMinted, no_sessions]⟩
    fun _ _ _ held _ stepped => ⟨warranted_next held.1 stepped, drawn_next held.2.1 stepped,
      sessionsMinted_next held.1 held.2.1 held.2.2 stepped⟩
  exact held.2.2

end Reachable

/-- From every reachable state of the stores, for every list of creations without a key
that pass the checks: all of them create a session exactly if no two have one owner, no
owner has a keyless session already, and the database takes the participant data and the texts. -/
theorem keyless_sessions_independent (start : init.threads = []) (no_sessions : init.world.sessions = [])
    (run : (machine p).Reaches anyStep init cfg) {requests : List V1CreateRequest}
    (passes : ∀ r ∈ requests, Passes p cfg.world r) {trace : List (Answer × World)}
    (served : (machine p).Serves up cfg.world (requests.map .v1Create) trace) :
    AllCreated cfg.world trace ↔ Independent p cfg.world requests :=
  all_created_iff (sessionsMinted_reached start no_sessions run) passes served

section Meetup
open Mainnet

def draws (session reference : String) : List Choice :=
  List.replicate 4 ⟨none, session⟩ ++ List.replicate 5 ⟨none, reference⟩

theorem draws_up (session reference : String) : ∀ choice ∈ draws session reference, up choice := by
  intro choice member
  simp only [draws, List.mem_append, List.mem_replicate] at member
  rcases member with ⟨_, rfl⟩ | ⟨_, rfl⟩ <;> rfl

theorem creation_passes (w : World) (events : w.events = [meetup]) (checkouts : w.checkouts = [])
    (now : w.now = (opening []).world.now) : Passes platform w (creation "") := by
  refine ⟨_, meetup, rfl, rfl, by decide, ?_, ?_, by rfl, ?_, .inl ?_⟩
  · simp [eventFor, events, meetup]
  · rw [now]
    decide
  · refine .inr (.inr ?_)
    simp [paidEmailRow, checkouts]
  · decide +kernel

theorem keyless_sessions_independent_meetup :
    ∃ trace, (machine platform).Serves up (opening []).world [create ""] trace ∧
      AllCreated (opening []).world trace ∧
      (AllCreated (opening []).world trace ↔ Independent platform (opening []).world [creation ""]) := by
  have played : ((v1CreatePaymentSession platform (creation "")).play (machine platform).exec
      (draws uuid3 uuid1) (opening []).world).isSome = true := by decide +kernel
  obtain ⟨⟨answer, after⟩, played⟩ := Option.isSome_iff_exists.mp played
  have runs := Program.play_runs (machine platform) (draws_up uuid3 uuid1) played
  have served : (machine platform).Serves up (opening []).world ([creation ""].map .v1Create) _ :=
    .cons runs (.nil after)
  have exact_when := keyless_sessions_independent rfl rfl (.refl (opening []))
    (by simpa using creation_passes _ rfl rfl rfl) served
  refine ⟨_, served, exact_when.mpr ⟨by simp, ?_⟩, exact_when⟩
  intro r member
  rw [List.mem_singleton.mp member]
  exact ⟨by simp [opening], by rfl, by decide +kernel⟩

def answersOk : Answer → Bool
  | .responded 200 _ => true
  | _ => false

/-- The second keyless session is refused. -/
theorem second_keyless_refused :
    ∃ trace, (∀ r ∈ [creation "", creation ""], Passes platform (opening []).world r) ∧
      (machine platform).Serves up (opening []).world [create "", create ""] trace ∧
      ¬ AllCreated (opening []).world trace := by
  have played : ((v1CreatePaymentSession platform (creation "")).play (machine platform).exec
      (draws uuid3 uuid1) (opening []).world).any (fun (_, middle) =>
        ((v1CreatePaymentSession platform (creation "")).play (machine platform).exec
          (draws uuid4 uuid2) middle).any fun (answer, _) => !answersOk answer) = true := by
    decide +kernel
  obtain ⟨⟨first, middle⟩, played, rest⟩ := (Option.any_eq_true _ _).mp played
  obtain ⟨⟨second, last⟩, played', refused⟩ := (Option.any_eq_true _ _).mp rest
  have runs := Program.play_runs (machine platform) (draws_up uuid3 uuid1) played
  have runs' := Program.play_runs (machine platform) (draws_up uuid4 uuid2) played'
  refine ⟨_, by simpa using creation_passes _ rfl rfl rfl, .cons runs (.cons runs' (.nil last)), ?_⟩
  rintro ⟨_, ⟨_, _, answered, _⟩, _⟩
  rw [answered] at refused
  cases refused

end Meetup

end Payknot
