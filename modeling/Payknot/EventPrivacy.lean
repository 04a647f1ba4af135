import Payknot.EventOwnership

/-! What hosts learn of each other's events. The listings and the writes name their caller,
but PUT and DELETE first ask whether any deposit was made for the event, whoever owns it:
the answer tells hosts apart that the rest of the request cannot. -/
namespace Payknot.Server
open GoText Interleaving Machine

variable {e : Environment} {ownerEmail : String} {w w' : World} {request : Request} {c : Credentials}
  {choices : Nat → Choice}

/-- The states have the same accounts, keys and clock, and the same events of this owner
with their checkouts; other hosts' events and deposits are arbitrary. -/
structure AgreeFor (ownerEmail : String) (w w' : World) : Prop where
  keys : w.keys = w'.keys
  accounts : w.accounts = w'.accounts
  clock : w.now = w'.now
  events : ownedEvents ownerEmail w.core.events = ownedEvents ownerEmail w'.core.events
  checkouts : ∀ event ∈ ownedEvents ownerEmail w.core.events,
    w.core.checkouts.filter (·.eventId = event.id) = w'.core.checkouts.filter (·.eventId = event.id)

section Agreement

theorem AgreeFor.owned (agree : AgreeFor ownerEmail w w') (id : Int64) :
    Payknot.ownedEvents w.core id ownerEmail = Payknot.ownedEvents w'.core id ownerEmail := by
  have counted (events : List EventRow) : (events.countP fun row => row.id = id && row.ownerEmail = ownerEmail) =
      (ownedEvents ownerEmail events).countP (·.id = id) := by
    rw [ownedEvents, List.countP_filter]
  rw [Payknot.ownedEvents, Payknot.ownedEvents, counted, counted, agree.events]

theorem AgreeFor.listed (agree : AgreeFor ownerEmail w w') (id : Int64) :
    ownedCheckouts id ownerEmail w.core = ownedCheckouts id ownerEmail w'.core := by
  unfold ownedCheckouts
  rw [← agree.events]
  by_cases owns : (ownedEvents ownerEmail w.core.events).any (·.id = id) = true
  · obtain ⟨event, among, same⟩ := List.any_eq_true.mp owns
    cases decide_eq_true_eq.mp same
    simp only [owns, Bool.and_true]
    exact agree.checkouts event among
  · simp only [Bool.not_eq_true] at owns
    simp only [owns, Bool.and_false]
    rw [List.filter_false, List.filter_false]

-- For an event of the caller's own the states agree on deposits, too.
theorem AgreeFor.paid (agree : AgreeFor ownerEmail w w') {event : EventRow}
    (among : event ∈ ownedEvents ownerEmail w.core.events) :
    paidRow event.id w.core.checkouts = paidRow event.id w'.core.checkouts := by
  have within (checkouts : List CheckoutRow) : paidRow event.id checkouts =
      (checkouts.filter (·.eventId = event.id)).any (·.isPaid) := by
    rw [paidRow, List.any_filter]
  rw [within, within, agree.checkouts event among]

-- Authenticating a request answers alike and touches no event.
theorem checks_alike (start start' : World) (choice : Choice) (op : Op) (m m' : World) (checks : op.checks = true)
    (related : AgreeFor ownerEmail m m' ∧ m.core = start.core ∧ m'.core = start'.core) :
    AnswerAlike (fun m m' => AgreeFor ownerEmail m m' ∧ m.core = start.core ∧ m'.core = start'.core)
      (exec e choice op m) (exec e choice op m') := by
  obtain ⟨agree, core, core'⟩ := related
  cases op with
  | keys op =>
      simp only [exec, agree.keys, agree.clock]
      cases AgentKeys.exec ⟨choice.fault, choice.cut⟩ op { m'.keys with now := m'.now } with
      | none => exact .inl ⟨rfl, rfl⟩
      | some step =>
          exact .inr ⟨step.1, _, _, rfl, rfl, ⟨rfl, agree.accounts, agree.clock, agree.events, agree.checkouts⟩,
            core, core'⟩
  | accounts op =>
      simp only [exec, agree.accounts, agree.clock]
      cases Accounts.exec e.accounts ⟨choice.fault, choice.text, choice.google⟩ op
          { m'.accounts with now := m'.now } with
      | none => exact .inl ⟨rfl, rfl⟩
      | some step =>
          exact .inr ⟨step.1, _, _, rfl, rfl, ⟨agree.keys, rfl, agree.clock, agree.events, agree.checkouts⟩,
            core, core'⟩
  | _ => cases checks

end Agreement

/-- What the request is answered when its operations take these choices. -/
def answer (e : Environment) (request : Request) (choices : Nat → Choice) (w : World) : Option Answer :=
  ((handler e request).attend (exec e) choices w).map (·.1)

/-- The events routes under which a host asks for events and checkouts; creating an event
is not among them. -/
def Request.asHost : Request → Option Credentials
  | .events c _ => if c.method = "GET" then some c else none
  | .eventsSubroutes c _ => some c
  | _ => none

/-- The event for which the request asks about deposits before anything else: that of a PUT
with a valid body, or of a DELETE. -/
def Request.checksDeposits (e : Environment) : Request → Option Int64
  | .eventsSubroutes c body =>
      match eventRoute c.path with
      | .event eventID =>
          if c.method = "PUT" then
            match body.map (normalizeAndValidateEventRequest e.platform) with
            | some (.ok _) => some eventID
            | _ => none
          else if c.method = "DELETE" then some eventID
          else none
      | _ => none
  | _ => none

section DepositLock

/-- The first statement fails, finds a deposit, or lets the request go on. -/
def depositLock (fault : Option Fault) (paid : Bool) (locked rest : Payknot.Answer) : Payknot.Answer :=
  match fault with
  | some _ => httpError "Failed to validate event state" 500
  | none => if paid then locked else rest

/-- The answer is `locked` after a deposit, and only then; else it depends on how many
events of that number the caller owns. -/
def Guarded (e : Environment) (eventID : Int64) (ownerEmail : String) (choices : Nat → Choice)
    (program : Payknot.Handler Payknot.Answer) : Prop :=
  ∃ locked : Payknot.Answer, ∃ rest : Nat → Payknot.Answer, (∀ n, rest n ≠ locked) ∧
    ∀ w, ((core program).attend (exec e) choices w).map (·.1) =
      some (depositLock (choices 0).fault (paidRow eventID w.core.checkouts) locked
        (rest (Payknot.ownedEvents w.core eventID ownerEmail)))

theorem Guarded.alike {eventID : Int64} {program : Payknot.Handler Payknot.Answer}
    (guarded : Guarded e eventID ownerEmail choices program) (agree : AgreeFor ownerEmail w w') :
    ((core program).attend (exec e) choices w).map (·.1) = ((core program).attend (exec e) choices w').map (·.1) ↔
      ((choices 0).fault = none →
        paidRow eventID w.core.checkouts = paidRow eventID w'.core.checkouts) := by
  obtain ⟨locked, rest, differs, answers⟩ := guarded
  rw [answers w, answers w', agree.owned eventID, Option.some.injEq]
  cases (choices 0).fault with
  | some fault => simp [depositLock]
  | none =>
      have differs := differs (Payknot.ownedEvents w'.core eventID ownerEmail)
      cases paidRow eventID w.core.checkouts <;> cases paidRow eventID w'.core.checkouts <;>
        simp [depositLock, differs, differs.symm]

theorem exec_hasPaidDeposits (choice : Choice) (eventID : Int64) (w : World) :
    exec e choice (.core (.sql (.hasPaidDeposits eventID))) w =
      some (match choice.fault with
        | some fault => .error fault
        | none => .ok (paidRow eventID w.core.checkouts), w) := by
  obtain ⟨fault, _⟩ := choice
  cases fault <;> rfl

/-- What a writer replies: a failure, or how many events of that number the caller owns. -/
def written (choice : Choice) (affected : Nat) : Except Fault Nat :=
  match choice.fault with
  | some fault => .error fault
  | none => .ok affected

theorem exec_updateEvent (choice : Choice) (eventID : Int64) (ownerEmail : String) (columns : EventColumns)
    (w : World) : ∃ after, exec e choice (.core (.sql (.updateEvent eventID ownerEmail columns))) w =
      some (written choice (Payknot.ownedEvents w.core eventID ownerEmail), after) := by
  obtain ⟨fault, _⟩ := choice
  cases fault <;> exact ⟨_, rfl⟩

theorem exec_deleteEvent (choice : Choice) (eventID : Int64) (ownerEmail : String) (w : World) :
    ∃ after, exec e choice (.core (.sql (.deleteEvent eventID ownerEmail))) w =
      some (written choice (Payknot.ownedEvents w.core eventID ownerEmail), after) := by
  obtain ⟨fault, _⟩ := choice
  cases fault with
  | some fault => exact ⟨_, rfl⟩
  | none =>
      by_cases nothing : Payknot.ownedEvents w.core eventID ownerEmail = 0
      · refine ⟨w, ?_⟩
        simp only [exec, Payknot.exec, Sql.run, nothing, if_true, settle, written, Option.map_some]
      · refine ⟨{ w with core := w.core.removeEvent eventID }, ?_⟩
        simp only [exec, Payknot.exec, Sql.run, if_neg nothing, settle, written, Option.map_some]

theorem affectedAnswer_ne (n : Nat) (text : String) : affectedAnswer n ≠ httpError text 409 := by
  unfold affectedAnswer httpError
  split <;> simp

theorem guarded_deleteEvent (eventID : Int64) (ownerEmail : String) (choices : Nat → Choice) :
    Guarded e eventID ownerEmail choices (deleteEvent eventID ownerEmail) := by
  refine ⟨httpError "event cannot be deleted after at least one successful deposit" 409, fun n =>
    match (choices 1).fault with
    | some _ => httpError "Failed to delete event" 500
    | none => affectedAnswer n, fun n => ?_, fun w => ?_⟩
  · cases (choices 1).fault with
    | some fault => simp [httpError]
    | none => exact affectedAnswer_ne n _
  · rw [core, attend_lift, deleteEvent, Payknot.sql, attend_perform_bind, exec_hasPaidDeposits]
    cases (choices 0).fault with
    | some fault => rfl
    | none =>
        cases paidRow eventID w.core.checkouts with
        | true => rfl
        | false =>
            obtain ⟨after, executed⟩ := exec_deleteEvent (e := e) (choices 1) eventID ownerEmail w
            simp only [Payknot.sql, attend_perform_bind, executed, written]
            cases (choices 1).fault <;> rfl

theorem updateEvent_rejected {request : CreateEventRequest} {text : String}
    (invalid : normalizeAndValidateEventRequest e.platform request = .error text) (eventID : Int64)
    (ownerEmail : String) :
    updateEvent e.platform (some request) eventID ownerEmail = pure (httpError text 400) := by
  unfold updateEvent
  dsimp only
  rw [invalid]

theorem guarded_updateEvent {request req : CreateEventRequest}
    (valid : normalizeAndValidateEventRequest e.platform request = .ok req) (eventID : Int64) (ownerEmail : String)
    (choices : Nat → Choice) :
    Guarded e eventID ownerEmail choices (updateEvent e.platform (some request) eventID ownerEmail) := by
  refine ⟨httpError "event cannot be edited after at least one successful deposit" 409, fun n =>
    match eventTimes e.platform req, (choices 1).fault with
    | .error text, _ => httpError text 400
    | .ok _, some _ => httpError "Failed to update event" 500
    | .ok _, none => affectedAnswer n, fun n => ?_, fun w => ?_⟩
  · cases eventTimes e.platform req with
    | error text => simp [httpError]
    | ok times =>
        cases (choices 1).fault with
        | some fault => simp [httpError]
        | none => exact affectedAnswer_ne n _
  · rw [core, attend_lift]
    unfold updateEvent
    dsimp only
    rw [valid]
    dsimp only
    rw [Payknot.sql, attend_perform_bind, exec_hasPaidDeposits]
    cases (choices 0).fault with
    | some fault => rfl
    | none =>
        cases paidRow eventID w.core.checkouts with
        | true => rfl
        | false =>
            cases eventTimes e.platform req with
            | error text => rfl
            | ok times =>
                obtain ⟨after, executed⟩ :=
                  exec_updateEvent (e := e) (choices 1) eventID ownerEmail (req.columns times.1 times.2) w
                dsimp only
                rw [Payknot.sql, attend_perform_bind, Nat.zero_add, executed, written]
                cases (choices 1).fault <;> rfl

end DepositLock

section Privacy

/-- The request is let in, and its first statement after that does not fail. -/
def Admitted (e : Environment) (c : Credentials) (choices : Nat → Choice) (w : World) : Prop :=
  ∃ claims left middle, (authenticateOrAgent e c).attend (exec e) choices w = some (some claims, left, middle) ∧
    (left 0).fault = none

-- A listing depends on the caller's records only.
theorem listEvents_alike {claims : Accounts.UserClaims} (agree : AgreeFor claims.email w w') :
    ((listEvents e claims).attend (exec e) choices w).map (·.1) =
      ((listEvents e claims).attend (exec e) choices w').map (·.1) := by
  simp only [listEvents, query, attend_perform_bind, exec, runQuery, agree.events]
  cases (choices 0).fault <;> rfl

theorem listCheckouts_alike {claims : Accounts.UserClaims} (eventID : Int64) (agree : AgreeFor claims.email w w') :
    ((listCheckouts eventID claims).attend (exec e) choices w).map (·.1) =
      ((listCheckouts eventID claims).attend (exec e) choices w').map (·.1) := by
  simp only [listCheckouts, query, attend_perform_bind, exec, runQuery, agree.listed]
  cases (choices 0).fault <;> rfl

theorem attend_pure (answer : Answer) (choices : Nat → Choice) (w : World) :
    (pure answer : Handler Answer).attend (exec e) choices w = some (answer, choices, w) := rfl

theorem pure_alike (answer : Answer) : ((pure answer : Handler Answer).attend (exec e) choices w).map (·.1) =
    ((pure answer : Handler Answer).attend (exec e) choices w').map (·.1) := by
  rw [attend_pure, attend_pure]
  rfl

theorem passed_alike (program : Payknot.Handler Payknot.Answer) :
    ((do return .core (← core program) : Handler Answer).attend (exec e) choices w).map (·.1) =
        ((do return .core (← core program) : Handler Answer).attend (exec e) choices w').map (·.1) ↔
      ((core program).attend (exec e) choices w).map (·.1) =
        ((core program).attend (exec e) choices w').map (·.1) := by
  simp only [attend_bind, attend_pure]
  cases (core program).attend (exec e) choices w <;> cases (core program).attend (exec e) choices w' <;> simp

theorem eventsSubroutes_alike {claims : Accounts.UserClaims} (c : Credentials) (body : Option CreateEventRequest)
    (agree : AgreeFor claims.email w w') :
    ((eventsSubroutes e c body claims).attend (exec e) choices w).map (·.1) =
        ((eventsSubroutes e c body claims).attend (exec e) choices w').map (·.1) ↔
      ∀ eventID, (Request.eventsSubroutes c body).checksDeposits e = some eventID → (choices 0).fault = none →
        paidRow eventID w.core.checkouts = paidRow eventID w'.core.checkouts := by
  have unguarded {program : Handler Answer}
      (same : (program.attend (exec e) choices w).map (·.1) = (program.attend (exec e) choices w').map (·.1)) :
      (program.attend (exec e) choices w).map (·.1) = (program.attend (exec e) choices w').map (·.1) ↔
        ∀ eventID, (none : Option Int64) = some eventID → (choices 0).fault = none →
          paidRow eventID w.core.checkouts = paidRow eventID w'.core.checkouts :=
    ⟨fun _ => nofun, fun _ => same⟩
  have guarded {eventID : Int64} {program : Payknot.Handler Payknot.Answer}
      (guarded : Guarded e eventID claims.email choices program) :
      ((do return .core (← core program) : Handler Answer).attend (exec e) choices w).map (·.1) =
          ((do return .core (← core program) : Handler Answer).attend (exec e) choices w').map (·.1) ↔
        ∀ other, some eventID = some other → (choices 0).fault = none →
          paidRow other w.core.checkouts = paidRow other w'.core.checkouts := by
    rw [passed_alike, guarded.alike agree]
    constructor
    · rintro same _ ⟨⟩
      exact same
    · exact fun same => same eventID rfl
  unfold eventsSubroutes Request.checksDeposits
  dsimp only
  cases eventRoute c.path with
  | missing | invalid | inviteCodes => exact unguarded (pure_alike _)
  | checkouts eventID =>
      dsimp only
      split
      · exact unguarded (pure_alike _)
      · exact unguarded (listCheckouts_alike eventID agree)
  | event eventID =>
      dsimp only
      by_cases put : c.method = "PUT"
      · rw [if_pos put, if_pos put]
        cases body with
        | none =>
            apply unguarded
            rw [passed_alike]
            unfold updateEvent
            rfl
        | some request =>
            cases valid : normalizeAndValidateEventRequest e.platform request with
            | ok req =>
                dsimp only [Option.map_some]
                rw [valid]
                exact guarded (guarded_updateEvent valid eventID claims.email choices)
            | error text =>
                dsimp only [Option.map_some]
                rw [valid]
                apply unguarded
                rw [passed_alike, updateEvent_rejected valid]
                rfl
      · rw [if_neg put, if_neg put]
        by_cases delete : c.method = "DELETE"
        · rw [if_pos delete, if_pos delete]
          exact guarded (guarded_deleteEvent eventID claims.email choices)
        · rw [if_neg delete, if_neg delete]
          exact unguarded (pure_alike _)

-- The program that the caller's identity selects.
theorem answer_requireAuthOrAgentKey (next : Accounts.UserClaims → Handler Answer) (w : World) :
    ((requireAuthOrAgentKey e c next).attend (exec e) choices w).map (·.1) =
      ((authenticateOrAgent e c).attend (exec e) choices w).bind fun (claims, left, middle) =>
        match claims with
        | none => some unauthorized
        | some claims => ((next claims).attend (exec e) left middle).map (·.1) := by
  unfold requireAuthOrAgentKey
  rw [attend_bind, Option.map_bind]
  cases (authenticateOrAgent e c).attend (exec e) choices w with
  | none => rfl
  | some ended =>
      obtain ⟨claims, left, middle⟩ := ended
      cases claims <;> rfl

/-- Two states that agree for the caller answer alike, if the request does not come to ask
about deposits or the states agree on what it asks; and only then. -/
theorem answers_alike_iff (agree : AgreeFor ownerEmail w w') (asked : request.asHost = some c)
    (caller : ∀ claims left middle, (authenticateOrAgent e c).attend (exec e) choices w =
      some (some claims, left, middle) → claims.email = ownerEmail) :
    answer e request choices w = answer e request choices w' ↔
      ∀ eventID, request.checksDeposits e = some eventID → Admitted e c choices w →
        paidRow eventID w.core.checkouts = paidRow eventID w'.core.checkouts := by
  have alike := attend_alike (checks_alike (e := e) w w')
    (along_authenticateOrAgent (e := e) c []) choices ⟨agree, rfl, rfl⟩
  -- What is selected past the middleware decides.
  have selected {next : Accounts.UserClaims → Handler Answer}
      (routed : handler e request = requireAuthOrAgentKey e c next)
      (decides : ∀ claims left middle middle', AgreeFor claims.email middle middle' →
        (((next claims).attend (exec e) left middle).map (·.1) =
            ((next claims).attend (exec e) left middle').map (·.1) ↔
          ∀ eventID, request.checksDeposits e = some eventID → (left 0).fault = none →
            paidRow eventID middle.core.checkouts = paidRow eventID middle'.core.checkouts)) :
      answer e request choices w = answer e request choices w' ↔
        ∀ eventID, request.checksDeposits e = some eventID → Admitted e c choices w →
          paidRow eventID w.core.checkouts = paidRow eventID w'.core.checkouts := by
    unfold answer
    rw [routed, answer_requireAuthOrAgentKey, answer_requireAuthOrAgentKey]
    rcases alike with ⟨ended, ended'⟩ | ⟨claims, left, middle, middle', ended, ended', agree, core, core'⟩
    · rw [ended, ended']
      refine ⟨fun _ eventID _ admitted => ?_, fun _ => rfl⟩
      obtain ⟨_, _, _, admitted, _⟩ := admitted
      rw [ended] at admitted
      cases admitted
    · rw [ended, ended']
      cases claims with
      | none =>
          refine ⟨fun _ eventID _ admitted => ?_, fun _ => rfl⟩
          obtain ⟨_, _, _, admitted, _⟩ := admitted
          rw [ended] at admitted
          cases admitted
      | some claims =>
          have email := caller claims left middle ended
          have decided := decides claims left middle middle' (email ▸ agree)
          rw [core, core'] at decided
          refine decided.trans (forall_congr' fun eventID => imp_congr_right fun _ => imp_congr_left ?_)
          constructor
          · exact fun sound => ⟨claims, left, middle, ended, sound⟩
          · rintro ⟨claims', left', middle'', admitted, sound⟩
            rw [ended] at admitted
            cases admitted
            exact sound
  cases request with
  | events c' body =>
      simp only [Request.asHost] at asked
      split at asked
      · next get =>
        cases asked
        refine selected rfl fun claims left middle middle' agree => ⟨fun _ => nofun, fun _ => ?_⟩
        have post : c.method ≠ "POST" := by
          rw [get]
          decide
        simp only [eventsRoot, if_neg post, if_pos get]
        exact listEvents_alike agree
      · cases asked
  | eventsSubroutes c' body =>
      cases asked
      exact selected rfl fun claims left middle middle' agree => eventsSubroutes_alike c body agree
  | _ => cases asked

end Privacy

section Deposits

def foreignDeposit : CheckoutRow where
  id := 1
  eventId := 1
  walletAddress := Mainnet.payer
  reference := Mainnet.uuid1
  signature := some Mainnet.signatureText1
  amount := 1000000
  status := .paid
  createdAt := 63889590000 * second
  paidAt := some (63889590000 * second)
  participantData := .obj []
  paymentMethod := "wallet"

theorem agree_aliceAddress : AgreeFor Accounts.aliceAddress (stored []) (stored [foreignDeposit]) := by
  refine ⟨rfl, rfl, rfl, rfl, fun event among => ?_⟩
  have second : event.id = 2 := by
    have ids : ∀ event ∈ ownedEvents Accounts.aliceAddress events, event.id = 2 := by decide
    exact ids event among
  rw [second]
  rfl

-- Without an agent's name nothing is verified that was signed.
theorem byAlice_authenticated (method path : String) :
    authenticateOrAgent environment (byAlice method path) = authenticate environment (byAlice "" "") := by
  have unnamed (r : SignedRequest) : AgentKeys.verifyAgentSignature environment.keys "" r = pure none := by
    rw [AgentKeys.verifyAgentSignature]
    exact if_pos (by decide)
  have goes_on (next : Option AgentKeys.AgentAuthClaims → Handler (Option Accounts.UserClaims)) :
      keys (pure none) >>= next = next none := rfl
  simp only [authenticateOrAgent, byAlice, unnamed, goes_on, authenticate]

theorem byAlice_claims (method path : String) (claims : Accounts.UserClaims) (left : Nat → Choice) (middle : World)
    (admitted : (authenticateOrAgent environment (byAlice method path)).attend (exec environment) (fun _ => sound)
      (stored []) = some (some claims, left, middle)) : claims.email = Accounts.aliceAddress := by
  have evaluated : ((authenticate environment (byAlice "" "")).attend (exec environment) (fun _ => sound)
      (stored [])).map (fun ended => ended.1.map (·.email)) = some (some Accounts.aliceAddress) := by decide +kernel
  rw [byAlice_authenticated] at admitted
  rw [admitted] at evaluated
  simpa using evaluated

theorem byAlice_admitted (method path : String) :
    Admitted environment (byAlice method path) (fun _ => sound) (stored []) := by
  have evaluated : ((authenticate environment (byAlice "" "")).attend (exec environment) (fun _ => sound)
      (stored [])).any (fun ended => ended.1.isSome && (ended.2.1 0).fault.isNone) = true := by decide +kernel
  obtain ⟨⟨claims, left, middle⟩, attended, admitted⟩ := (Option.any_eq_true _ _).mp evaluated
  rw [Bool.and_eq_true, Option.isSome_iff_exists, Option.isNone_iff_eq_none] at admitted
  obtain ⟨⟨found, rfl⟩, unfailing⟩ := admitted
  exact ⟨found, left, middle, by rw [byAlice_authenticated, attended], unfailing⟩

/-- Whether another host was paid alice is not told by a DELETE of her own event, but by one
of that host's event. -/
theorem answers_alike_iff_alice :
    answer environment (.eventsSubroutes (byAlice "DELETE" "/api/events/2") none) (fun _ => sound) (stored []) =
      answer environment (.eventsSubroutes (byAlice "DELETE" "/api/events/2") none) (fun _ => sound)
        (stored [foreignDeposit]) ∧
    answer environment (.eventsSubroutes (byAlice "DELETE" "/api/events/1") none) (fun _ => sound) (stored []) ≠
      answer environment (.eventsSubroutes (byAlice "DELETE" "/api/events/1") none) (fun _ => sound)
        (stored [foreignDeposit]) := by
  have own_route : eventRoute "/api/events/2" = .event 2 := by rfl
  have other_route : eventRoute "/api/events/1" = .event 1 := by rfl
  constructor
  · refine (answers_alike_iff agree_aliceAddress rfl (byAlice_claims "DELETE" "/api/events/2")).mpr ?_
    intro eventID asks _
    have own : eventID = 2 := by
      simpa [Request.checksDeposits, byAlice, Credentials.path, Credentials.method, own_route, eq_comm] using asks
    rw [own]
    rfl
  · intro same
    have told := (answers_alike_iff agree_aliceAddress rfl (byAlice_claims "DELETE" "/api/events/1")).mp same 1 (by
      simp [Request.checksDeposits, byAlice, Credentials.path, Credentials.method, other_route])
      (byAlice_admitted "DELETE" "/api/events/1")
    cases told

def Answer.status : Answer → Option Nat
  | .error _ status => some status
  | .core (.responded status _) => some status
  | _ => none

/-- Alice tries to delete another host's event: she is told 404 before a deposit was made
for it, and 409 after. -/
theorem foreign_deposit_shown : ∃ (w w' : World) (request : Request) (c : Credentials) (choices : Nat → Choice),
    AgreeFor Accounts.aliceAddress w w' ∧ request.asHost = some c ∧
    (∀ claims left middle, (authenticateOrAgent environment c).attend (exec environment) choices w =
      some (some claims, left, middle) → claims.email = Accounts.aliceAddress) ∧
    answer environment request choices w ≠ answer environment request choices w' := by
  refine ⟨stored [], stored [foreignDeposit], .eventsSubroutes (byAlice "DELETE" "/api/events/1") none, _,
    fun _ => sound, agree_aliceAddress, rfl, byAlice_claims "DELETE" "/api/events/1", fun same => ?_⟩
  have missing : (answer environment (.eventsSubroutes (byAlice "DELETE" "/api/events/1") none) (fun _ => sound)
      (stored [])).bind Answer.status = some 404 := by decide +kernel
  have locked : (answer environment (.eventsSubroutes (byAlice "DELETE" "/api/events/1") none) (fun _ => sound)
      (stored [foreignDeposit])).bind Answer.status = some 409 := by decide +kernel
  have statuses : some 404 = some 409 := calc
    some 404 = _ := missing.symm
    _ = _ := congrArg (·.bind Answer.status) same
    _ = some 409 := locked
  cases statuses

end Deposits

end Payknot.Server
