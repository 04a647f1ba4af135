import Payknot.Components
import Payknot.Routines
import Payknot.EventOwnership
import Payknot.Receipts

/-! The payment core inside the whole server. Behind the middleware, beside the accounts, the
agents and the rate limiter, the checkout and event handlers see the core's store as they
would alone; what holds in every run of the core holds in every run of the server. -/
namespace Payknot.Server
open GoText Interleaving Machine

variable {e : Environment}

section Embedded

/-- The core's request a request of the server comes to, where it comes to one. -/
def Request.asks : Request → Payknot.Request → Prop
  | .checkout _ r, asked => asked = withoutClaims r.val
  | .events _ body, asked => ∃ email, asked = .createEvent (some ⟨email⟩) ⟨.post, body⟩
  | .eventsSubroutes _ body, asked => ∃ eventID email,
      asked = .updateEvent body eventID email ∨ asked = .deleteEvent eventID email
  | _, _ => False

def Request.isCheckout : Request → Bool
  | .checkout _ _ => true
  | _ => false

/-- The core's answer is handed on; a checkout is refused otherwise by the rate limiter only. -/
def Request.ends (request : Request) (served : List (Payknot.Request × Payknot.Answer)) (answer : Answer) : Prop :=
  (∃ pair, served = [pair] ∧ request.asks pair.1 ∧ answer = .core pair.2) ∨
    (request.isCheckout = true → ∃ refused, answer = .limited refused)

def Op.isCore : Op → Bool
  | .core _ => true
  | _ => false

theorem spares_outside {op : Op} (outside : op.isCore = false) : Spares (machine e) World.core op := by
  intro choice w reply after executed
  rcases exec_core (e := e) executed with same | ⟨part, _, rfl, _⟩
  · exact same
  · cases outside

theorem spares_looking {part : Payknot.Op} (looks : part.looks = true) :
    Spares (machine e) World.core (.core part) := by
  intro choice w reply after executed
  obtain ⟨⟨_, _⟩, ran, same⟩ := Option.map_eq_some_iff.mp executed
  cases same
  exact performs_looks (p := e.platform) looks ⟨_, trivial, ran⟩

/-- Serving a request of the server leaves the core alone but for what it `asks`. -/
abbrev Serves (e : Environment) (request : Request) :
    List (Payknot.Request × Payknot.Answer) → Handler Answer → Prop :=
  Delegates Op.core (Payknot.handler e.platform) (Spares (machine e) World.core) request.asks request.ends

variable {request : Request} {served : List (Payknot.Request × Payknot.Answer)}

theorem serves_outside {Part Result : Type} (inject : Part → Op) (outside : ∀ part, (inject part).isCore = false)
    (program : Program (fun part => Reply (inject part)) Result) {next : Result → Handler Answer}
    (rest : ∀ result, Serves e request served (next result)) :
    Serves e request served (program.lift inject >>= next) :=
  .elsewhere (fun part => spares_outside (outside part)) program rest

theorem serves_authenticated (c : Credentials) {next : Option Accounts.UserClaims → Handler Answer}
    (rest : ∀ claims, Serves e request served (next claims)) :
    Serves e request served (authenticateOrAgent e c >>= next) := by
  unfold authenticateOrAgent authenticate keys accounts
  rw [Program.bind_assoc]
  refine serves_outside Op.keys (fun _ => rfl) _ ?_
  rintro (_ | claims)
  · dsimp only
    rw [Program.bind_assoc]
    refine serves_outside Op.accounts (fun _ => rfl) _ ?_
    rintro (_ | claims)
    · dsimp only
      rw [Program.bind_assoc]
      refine serves_outside Op.accounts (fun _ => rfl) _ ?_
      rintro (_ | pat)
      · exact rest none
      · exact rest (some pat.claims)
    · exact rest (some claims)
  · exact rest (some (agentClaims claims))

-- The core serves what the request asks, and its answer is handed on.
theorem serves_core (asked : Payknot.Request) (asks : request.asks asked) :
    Serves e request [] (core (Payknot.handler e.platform asked) >>= fun answer => pure (.core answer)) :=
  .serve asks fun _ => .ret (.inl ⟨_, rfl, asks, rfl⟩)

theorem serves_query (q : Query) {next : Except Fault q.Result → Handler Answer}
    (rest : ∀ reply, Serves e request served (next reply)) : Serves e request served (query q >>= next) :=
  .perform (spares_outside rfl) rest

theorem serves_status (reference : String) {next : Option CheckoutStatusResponse → Handler Answer}
    (rest : ∀ reply, Serves e request served (next reply)) :
    Serves e request served (core (getCheckoutStatusByReference reference) >>= next) := by
  have looks : (getCheckoutStatusByReference reference).Along
      (fun _ part => Spares (machine e) World.core (.core part)) (fun _ _ => True) [] := by
    unfold getCheckoutStatusByReference Payknot.sql
    rw [Program.along_perform_bind]
    refine ⟨spares_looking rfl, ?_⟩
    rintro (_ | _ | row) <;> rw [Program.along_pure] <;> trivial
  exact .lifted looks rest

theorem serves_runtimeClaims (authorization : String) {next : Option AgentRuntime.AgentClaims → Handler Answer}
    (rest : ∀ claims, Serves e request served (next claims)) :
    Serves e request served (agentRuntimeClaimsFromRequest e authorization >>= next) := by
  unfold agentRuntimeClaimsFromRequest
  dsimp only
  split
  · exact rest none
  · split
    · rw [Program.bind_assoc]
      refine serves_outside Op.accounts (fun _ => rfl) _ ?_
      rintro (_ | pat)
      · exact rest none
      · exact .perform (spares_looking rfl) fun now => rest _
    · exact serves_outside Op.agents (fun _ => rfl) _ rest

section Unlimited
variable (unlimited : request.isCheckout = false)
include unlimited

theorem serves_answer (answer : Answer) : Serves e request served (pure answer) :=
  .ret (.inr fun limited => absurd (unlimited.symm.trans limited) (by decide))

theorem serves_requireAuth {c : Credentials} {next : Accounts.UserClaims → Handler Answer}
    (rest : ∀ claims, Serves e request [] (next claims)) :
    Serves e request [] (requireAuthOrAgentKey e c next) := by
  unfold requireAuthOrAgentKey
  apply serves_authenticated
  rintro (_ | claims)
  · exact serves_answer unlimited _
  · exact rest claims

theorem serves_requireSession {cookie : Option String} {next : Accounts.UserClaims → Handler Answer}
    (rest : ∀ claims, Serves e request [] (next claims)) :
    Serves e request [] (requireSessionAuth e cookie next) := by
  unfold requireSessionAuth accounts
  refine serves_outside Op.accounts (fun _ => rfl) _ ?_
  rintro (_ | claims)
  · exact serves_answer unlimited _
  · exact rest claims

theorem serves_part {Part Result : Type} (inject : Part → Op) (outside : ∀ part, (inject part).isCore = false)
    (program : Program (fun part => Reply (inject part)) Result) (answer : Result → Answer) :
    Serves e request served (program.lift inject >>= fun result => pure (answer result)) :=
  serves_outside inject outside program fun result => serves_answer unlimited (answer result)

end Unlimited

theorem serves_handler (request : Request) : Serves e request [] (handler e request) := by
  cases request with
  | checkout remoteAddr r =>
      unfold handler checkout
      dsimp only
      cases limitedPath r.val with
      | none => exact serves_core (withoutClaims r.val) rfl
      | some path =>
          refine serves_outside Op.limiter (fun _ => rfl) (RateLimit.rateLimit ⟨path, remoteAddr⟩) fun verdict => ?_
          cases verdict with
          | forwarded => exact serves_core (withoutClaims r.val) rfl
          | _ => exact .ret (.inr fun _ => ⟨_, rfl⟩)
  | events c body =>
      refine serves_requireAuth rfl fun claims => ?_
      unfold eventsRoot
      split
      · exact serves_core (.createEvent (some ⟨claims.email⟩) ⟨.post, body⟩) ⟨_, rfl⟩
      · split
        · unfold listEvents
          refine serves_query _ fun reply => ?_
          cases reply <;> exact serves_answer rfl _
        · exact serves_answer rfl _
  | eventsSubroutes c body =>
      refine serves_requireAuth rfl fun claims => ?_
      unfold eventsSubroutes
      split
      · exact serves_answer rfl _
      · exact serves_answer rfl _
      · next eventID _ =>
        split
        · exact serves_core (.updateEvent body eventID claims.email) ⟨_, _, .inl rfl⟩
        · split
          · exact serves_core (.deleteEvent eventID claims.email) ⟨_, _, .inr rfl⟩
          · exact serves_answer rfl _
      · exact serves_answer rfl _
      · split
        · exact serves_answer rfl _
        · unfold listCheckouts
          refine serves_query _ fun reply => ?_
          cases reply <;> exact serves_answer rfl _
  | participantStatus r =>
      unfold handler getParticipantStatus
      dsimp only
      repeat' with_reducible split
      all_goals first
        | exact serves_answer rfl _
        | refine serves_query _ fun reply => ?_
      split
      · refine serves_status _ fun status => ?_
        cases status <;> exact serves_answer rfl _
      · exact serves_answer rfl _
  | checkoutStatus method reference =>
      unfold handler getCheckoutStatus
      dsimp only
      repeat' with_reducible split
      all_goals first
        | exact serves_answer rfl _
        | refine serves_status _ fun status => ?_
      cases status <;> exact serves_answer rfl _
  | checkoutBySlug method path =>
      unfold handler getCheckoutBySlug
      dsimp only
      repeat' with_reducible split
      all_goals first
        | exact serves_answer rfl _
        | refine .perform (spares_looking rfl) fun reply => ?_
      rcases reply with _ | _ | event <;> exact serves_answer rfl _
  | authMe method authorization =>
      unfold handler agentAuthMe
      refine serves_runtimeClaims authorization fun claims => ?_
      repeat' with_reducible split
      all_goals exact serves_answer rfl _
  | account r => exact serves_part rfl Op.accounts (fun _ => rfl) _ _
  | agent r => exact serves_part rfl Op.agents (fun _ => rfl) _ _
  | me c => exact serves_requireAuth rfl fun claims => serves_part rfl Op.accounts (fun _ => rfl) _ _
  | importLuma c url =>
      refine serves_requireAuth rfl fun claims => ?_
      unfold importLumaEvent
      dsimp only
      repeat' with_reducible split
      all_goals first
        | exact serves_answer rfl _
        | refine .perform (spares_outside rfl) fun page => ?_
      repeat' with_reducible split
      all_goals exact serves_answer rfl _
  | agentKeys cookie method body =>
      refine serves_requireSession rfl fun claims => ?_
      unfold agentKeysRoot
      cases method with
      | get =>
          refine serves_query _ fun reply => ?_
          cases reply <;> exact serves_answer rfl _
      | post => exact serves_part rfl Op.keys (fun _ => rfl) _ _
      | other => exact serves_answer rfl _
  | revokeAgentKey cookie r =>
      exact serves_requireSession rfl fun claims => serves_part rfl Op.keys (fun _ => rfl) _ _
  | authPAT method body =>
      unfold handler agentAuthPAT
      dsimp only
      split
      · exact serves_answer rfl _
      · split
        · next req =>
          refine serves_outside Op.accounts (fun _ => rfl)
            (Accounts.personalAccessTokenAuthFromRaw e.accounts (trimSpace req.token)) ?_
          rintro (_ | pat)
          · exact serves_answer rfl _
          · dsimp only
            split
            · split
              · exact serves_answer rfl _
              · exact serves_part rfl Op.agents (fun _ => rfl) _ Answer.agents
            · exact serves_part rfl Op.agents (fun _ => rfl) _ Answer.agents
        · exact serves_answer rfl _

def coreComponent (e : Environment) : Component Op.core (machine e) (Payknot.machine e.platform) where
  view := World.core
  asks := Request.asks
  ends := Request.ends
  exec := by
    intro choice op w reply after executed
    obtain ⟨⟨_, _⟩, ran, same⟩ := Option.map_eq_some_iff.mp executed
    cases same
    exact ⟨_, ran⟩
  occur := by
    intro event w after occurred
    obtain ⟨_, ran, same⟩ := Option.map_eq_some_iff.mp occurred
    cases same
    exact .inr ⟨event, ran⟩
  delegates := serves_handler

end Embedded

section Deployment

/-- The deployment with a landed payment that no request has named yet. -/
def paidOutside : World :=
  { stored [] with core := { (stored []).core with chain := [Mainnet.landed Mainnet.signature1 []] } }

def manualVerification : CheckoutRequest := ⟨Mainnet.manualVerify Mainnet.signatureText1, rfl⟩

def toldByCore : ServiceThread → Bool
  | ⟨.checkout _ _, _, .ret (.core _)⟩ => true
  | _ => false

-- The limiter lets the request pass, and the core records the deposit.
theorem passed_limiter : ∃ cfg, (machine environment).Reaches anyStep ⟨paidOutside, []⟩ cfg ∧
    (∃ row, row ∈ cfg.world.core.checkouts) ∧
    ∃ thread ∈ cfg.threads, ∃ remoteAddr r told, thread.request = .checkout remoteAddr r ∧
      thread.program = .ret (.core told) := by
  obtain ⟨cfg, run, done⟩ := run_meets (machine environment) (fun _ _ => true)
    (.arrive (.checkout "203.0.113.9:4711" manualVerification) ::
      List.replicate 9 (.step 0 ⟨none, some Mainnet.uuid1, none, .unavailable, .unreachable⟩)) ⟨paidOutside, []⟩
    (fun cfg => !cfg.world.core.checkouts.isEmpty && cfg.threads.any toldByCore) (by decide +kernel)
  simp only [Bool.and_eq_true, Bool.not_eq_true', List.isEmpty_eq_false_iff_exists_mem] at done
  obtain ⟨thread, member, told⟩ := List.any_eq_true.mp done.2
  refine ⟨cfg, run.any, done.1, thread, member, ?_⟩
  unfold toldByCore at told
  split at told
  · exact ⟨_, _, _, rfl, rfl⟩
  · cases told

end Deployment

section Refinement

variable {w : World} {cfg : Service}

def FromServer (_ : Payknot.Service) (label : Payknot.ServiceLabel) : Prop :=
  ∀ asked, label = .arrive asked → ∃ request : Request, request.asks asked

/-- The server refines the core: whatever else it serves, its core store goes through a run of
the core alone, and a checkout request that is not turned away by the rate limiter is answered
as the core answers it there. -/
theorem server_refines_core (run : (machine e).Reaches anyStep ⟨w, []⟩ cfg) :
    ∃ shown : Payknot.Service, (Payknot.machine e.platform).Reaches FromServer ⟨w.core, []⟩ shown ∧
      shown.world = cfg.world.core ∧
      ∀ thread ∈ cfg.threads, ∀ remoteAddr r answer, thread.request = .checkout remoteAddr r →
        thread.program = .ret answer →
        (∃ refused, answer = .limited refused) ∨
          ∃ served ∈ shown.threads, ∃ told, served.request = withoutClaims r.val ∧
            served.program = .ret told ∧ answer = .core told := by
  obtain ⟨shown, place, runs, represents⟩ := (coreComponent e).runs_part run
  refine ⟨shown, runs.mono fun _ _ asked => asked.2, represents.world, ?_⟩
  intro thread member remoteAddr r answer checkout ended
  obtain ⟨served, ends, answered⟩ := represents.ended member ended
  rcases ends with ⟨pair, rfl, asks, rfl⟩ | limited
  · obtain ⟨index, core_thread, found, requested, told⟩ := answered pair (List.mem_singleton.mpr rfl)
    rw [checkout] at asks
    exact .inr ⟨core_thread, List.mem_of_getElem? found, pair.2, requested.trans asks, told, rfl⟩
  · rw [checkout] at limited
    exact .inl (limited rfl)

-- A manual verification behind the rate limiter, as the core alone serves it.
theorem server_refines_core_meetup : ∃ (cfg : Service) (shown : Payknot.Service),
    (Payknot.machine environment.platform).Reaches FromServer ⟨paidOutside.core, []⟩ shown ∧
      shown.world = cfg.world.core ∧ (∃ row, row ∈ shown.world.checkouts) ∧
      ∃ served ∈ shown.threads, ∃ told, served.program = .ret told := by
  obtain ⟨cfg, run, recorded, thread, member, remoteAddr, r, told, checkout, ended⟩ := passed_limiter
  obtain ⟨shown, runs, same, answers⟩ := server_refines_core run
  refine ⟨cfg, shown, runs, same, by rwa [same], ?_⟩
  rcases answers thread member remoteAddr r _ checkout ended with ⟨refused, limited⟩ |
    ⟨served, present, told, _, ended, _⟩
  · cases limited
  · exact ⟨served, present, told, ended⟩

/-- Whatever the server is asked besides, a paid deposit is paid for on the chain: in the
row's amount, to the wallet of a version that its event's row had. -/
theorem server_deposits_verified (fresh : Fresh ⟨w.core, []⟩)
    (run : (machine e).Reaches anyStep ⟨w, []⟩ cfg) {row : CheckoutRow} (member : row ∈ cfg.world.core.checkouts) :
    ∃ event merchant signature tx, Was e ⟨w, []⟩ cfg (fun core => event ∈ core.events) ∧
      row.eventId = event.id ∧ row.amount = event.columns.amountUSDC ∧ WalletOf event merchant ∧
      row.signature = some signature ∧ OnChain e.platform cfg.world.core signature tx ∧
      PaysInto e.platform tx merchant row.amount := by
  obtain ⟨shown, place, runs, represents⟩ := (coreComponent e).runs_part run
  have world : shown.world = cfg.world.core := represents.world
  rw [← world] at member ⊢
  obtain ⟨thread, present, event, merchant, signature, tx, receipt⟩ :=
    (receipted_reached fresh runs.any).2 row member
  refine ⟨event, merchant, signature, tx, ?_, receipt.eventId, receipt.amount, receipt.wallet, receipt.signed,
    receipt.onChain, receipt.pays⟩
  obtain ⟨middle, _, asked, listed⟩ := read_during runs rfl present receipt.read
  obtain ⟨state, before, since, same⟩ := asked.1
  rw [same] at listed
  exact ⟨state, before, since, listed⟩

theorem server_deposits_verified_meetup : ∃ (cfg : Service) (row : CheckoutRow),
    row ∈ cfg.world.core.checkouts ∧ ∃ event merchant signature tx,
      Was environment ⟨paidOutside, []⟩ cfg (fun core => event ∈ core.events) ∧
        row.signature = some signature ∧ OnChain environment.platform cfg.world.core signature tx ∧
        PaysInto environment.platform tx merchant row.amount := by
  obtain ⟨cfg, run, ⟨row, member⟩, _⟩ := passed_limiter
  obtain ⟨event, merchant, signature, tx, was, _, _, _, signed, onChain, pays⟩ :=
    server_deposits_verified ⟨rfl, rfl, rfl, rfl, rfl⟩ run member
  exact ⟨cfg, row, member, event, merchant, signature, tx, was, signed, onChain, pays⟩

end Refinement
end Payknot.Server
