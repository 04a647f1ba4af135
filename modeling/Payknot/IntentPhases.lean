import Payknot.Settlements

/-! The statements of a settlement request in their order: the hourly limit and the count,
the lookup of the idempotency key, the insert, and the confirmation or the failure. -/
namespace Payknot.AgentRuntime
open GoText Interleaving Machine

variable {e : Environment} {r : CheckoutRequest} {log : Log Reply} {agentPubkey : String}

def Op.settles : Op → Bool
  | .sql (.countHour _) | .sql (.selectIntent _ _) | .sql (.insertIntent _) | .sql (.confirmIntent _ _)
  | .sql (.failIntent _) => true
  | _ => false

def Untouched (log : Log Reply) : Prop := ∀ entry ∈ log, entry.op.settles = false

def isCount : Entry Reply → Prop
  | ⟨.sql (.countHour _), _⟩ => True
  | _ => False

def isConfirm : Entry Reply → Prop
  | ⟨.sql (.confirmIntent _ _), _⟩ => True
  | _ => False

def Passed (log : Log Reply) (agentPubkey : String) : Prop :=
  ∃ limit count, log.Saw (.sql .selectHourlyLimit) limit ∧ log.Saw (.sql (.countHour agentPubkey)) count ∧
    (scannedCount count : Int) < scannedLimit limit

theorem Passed.mono {log later : Log Reply} (passed : Passed log agentPubkey) (grown : log <:+ later) :
    Passed later agentPubkey := by
  obtain ⟨limit, count, read, counted, below⟩ := passed
  exact ⟨limit, count, read.mono grown, counted.mono grown, below⟩

structure Bounded (e : Environment) (intent : NewIntent) : Prop where
  positive : 0 < intent.amountUSDC
  ceiling : intent.amountUSDC ≤ 500
  memo : intent.memo ≠ ""
  recipient : e.publicKeyFromBase58 intent.recipient = true

def LookedUp (log : Log Reply) (agentPubkey key : String) : Prop :=
  ∃ found, log.Saw (.sql (.selectIntent agentPubkey key)) found ∧ ∀ txSig, found ≠ .ok (some txSig)

theorem LookedUp.mono {log later : Log Reply} {key : String} (looked : LookedUp log agentPubkey key)
    (grown : log <:+ later) : LookedUp later agentPubkey key := by
  obtain ⟨found, saw, absent⟩ := looked
  exact ⟨found, saw.mono grown, absent⟩

def Phase (e : Environment) (r : CheckoutRequest) (log : Log Reply) : Op → Prop
  | .sql (.countHour _) => Untouched log ∧ ∃ limit, log.Saw (.sql .selectHourlyLimit) limit
  | .sql (.selectIntent agentPubkey key) => Passed log agentPubkey ∧ (∀ entry ∈ log, ¬ isConfirm entry) ∧
      key = trimSpace r.idempotencyKey ∧ key ≠ ""
  | .sql (.insertIntent intent) => Passed log intent.agentPubkey ∧ Bounded e intent ∧
      intent.idempotencyKey = nullIfEmpty (trimSpace r.idempotencyKey) ∧
      (trimSpace r.idempotencyKey ≠ "" → LookedUp log intent.agentPubkey (trimSpace r.idempotencyKey))
  | .sql (.confirmIntent id _) => mockEnabled e = true ∧ (∀ entry ∈ log, ¬ isConfirm entry) ∧
      ∃ intent reply, intent.id = id ∧ log.Saw (.sql (.insertIntent intent)) reply
  | .sql (.failIntent id) => mockEnabled e = false ∧
      ∃ intent reply, intent.id = id ∧ log.Saw (.sql (.insertIntent intent)) reply
  | _ => True

def Going (log : Log Reply) : Prop := Untouched log ∨ ∃ agentPubkey, Passed log agentPubkey

def Phases (e : Environment) (request : Request) (log : Log Reply) (op : Op) : Prop :=
  ∀ r, request = .createCheckout r → Going log ∧ Phase e r log op

inductive Ending (agentPubkey key : String) : Log Reply → Answer → Prop where
  | refused {limit : Except Fault (Option Int)} {count log text}
      (read : Log.Saw log (.sql .selectHourlyLimit) limit)
      (reached : scannedLimit limit ≤ (scannedCount count : Int)) :
      Ending agentPubkey key (⟨.sql (.countHour agentPubkey), count⟩ :: log) (.error text 403)
  | found {txSig log} : Ending agentPubkey key (⟨.sql (.selectIntent agentPubkey key), .ok (some txSig)⟩ :: log)
      (.settled txSig (explorerFor txSig))
  | confirmed {id txSig reply log} : Ending agentPubkey key (⟨.sql (.confirmIntent id txSig), reply⟩ :: log)
      (.settled txSig (explorerFor txSig))
  | failed {id reply log text} : Ending agentPubkey key (⟨.sql (.failIntent id), reply⟩ :: log) (.error text 500)

/-- A request that came as far as the hourly count ends with one of these statements. -/
def Endings (request : Request) (log : Log Reply) (answer : Answer) : Prop :=
  ∀ r, request = .createCheckout r → Untouched log ∨
    ∃ agentPubkey, Ending agentPubkey (trimSpace r.idempotencyKey) log answer

theorem Passed.going (passed : Passed log agentPubkey) : Going log := .inr ⟨agentPubkey, passed⟩

theorem phase_of_checks {op : Op} (checks : op.checks = true) : Phase e r log op := by
  cases op with
  | sql statement => cases statement <;> trivial
  | newUUID | randomNonce | now => trivial

theorem Untouched.cons (untouched : Untouched log) {entry : Entry Reply} (settles : entry.op.settles = false) :
    Untouched (entry :: log) := by
  rintro other (_ | ⟨_, earlier⟩)
  · exact settles
  · exact untouched other earlier

theorem Untouched.unconfirmed (untouched : Untouched log) : ∀ entry ∈ log, ¬ isConfirm entry := by
  intro entry member confirms
  have settles := untouched entry member
  unfold isConfirm at confirms
  split at confirms
  · cases settles
  · exact confirms

theorem policyRejects_bounded {req : AgentCheckoutCreateRequest} (accepted : policyRejects e req = none) :
    0 < req.amountUSDC ∧ req.amountUSDC ≤ 500 ∧ trimSpace req.memo ≠ "" ∧
      e.publicKeyFromBase58 (trimSpace req.recipient) = true := by
  unfold policyRejects at accepted
  split at accepted
  · cases accepted
  · next amount =>
    split at accepted
    · cases accepted
    · next memo =>
      split at accepted
      · cases accepted
      · next recipient =>
        obtain ⟨positive, ceiling⟩ := not_or.mp amount
        exact ⟨Rat.not_le.mp positive, Rat.not_lt.mp ceiling, memo, by simpa using recipient⟩

theorem along_phase_settle {req : AgentCheckoutCreateRequest} (accepted : policyRejects e req = none)
    (passed : Passed log agentPubkey) (unconfirmed : ∀ entry ∈ log, ¬ isConfirm entry)
    (looked : trimSpace r.idempotencyKey ≠ "" → LookedUp log agentPubkey (trimSpace r.idempotencyKey)) :
    (settle e agentPubkey req (trimSpace r.idempotencyKey)).Along (fun log op => Going log ∧ Phase e r log op)
      (Ending agentPubkey (trimSpace r.idempotencyKey)) log := by
  obtain ⟨positive, ceiling, memo, recipient⟩ := policyRejects_bounded accepted
  have later {entry : Entry Reply} {log : Log Reply} (passed : Passed log agentPubkey) :
      Passed (entry :: log) agentPubkey := passed.mono (List.suffix_cons _ _)
  unfold settle newUUID sql
  rw [Program.along_perform_bind]
  refine ⟨⟨passed.going, trivial⟩, fun intentID => ?_⟩
  rw [Program.along_perform_bind]
  refine ⟨⟨(later passed).going, later passed, ?_, ?_, fun some_key => ?_⟩, fun inserted => ?_⟩
  · constructor
    · exact positive
    · exact ceiling
    · exact memo
    · exact recipient
  · dsimp only
  · exact (looked some_key).mono (List.suffix_cons _ _)
  split
  · next mock =>
    rw [Program.along_perform_bind]
    refine ⟨⟨(later (later passed)).going, trivial⟩, fun uuid => ?_⟩
    rw [Program.along_perform_bind]
    refine ⟨⟨(later (later (later passed))).going, mock, ?_, _, inserted, ?_,
      List.mem_cons_of_mem _ List.mem_cons_self⟩, fun _ => ?_⟩
    · rintro entry (_ | ⟨_, _ | ⟨_, _ | ⟨_, earlier⟩⟩⟩)
      · exact id
      · exact id
      · exact id
      · exact unconfirmed entry earlier
    · dsimp only
    · rw [Program.along_pure]
      exact .confirmed
  · next mock =>
    rw [Program.along_perform_bind]
    refine ⟨⟨(later (later passed)).going, Bool.eq_false_iff.mpr mock, _, inserted, ?_, List.mem_cons_self⟩,
      fun _ => ?_⟩
    · dsimp only
    · rw [Program.along_pure]
      exact .failed

theorem along_phase_create {agent : AgentClaims} (untouched : Untouched log) :
    (agentCheckoutCreate e agent r).Along (fun log op => Going log ∧ Phase e r log op)
      (fun log answer => Untouched log ∨ ∃ agentPubkey, Ending agentPubkey (trimSpace r.idempotencyKey) log answer)
      log := by
  unfold agentCheckoutCreate
  split
  · rw [Program.along_pure]
    exact .inl untouched
  · split
    · split
      · rw [Program.along_pure]
        exact .inl untouched
      · next accepted =>
        unfold sql
        rw [Program.along_perform_bind]
        refine ⟨⟨.inl untouched, trivial⟩, fun limit => ?_⟩
        have untouched : Untouched (⟨.sql .selectHourlyLimit, limit⟩ :: log) := untouched.cons rfl
        rw [Program.along_perform_bind]
        refine ⟨⟨.inl untouched, untouched, limit, List.mem_cons_self⟩, fun count => ?_⟩
        simp only
        split
        · next reached =>
          rw [Program.along_pure]
          exact .inr ⟨_, .refused List.mem_cons_self reached⟩
        · next below =>
          have passed : Passed (⟨.sql (.countHour agent.agentPubkey), count⟩ ::
              ⟨.sql .selectHourlyLimit, limit⟩ :: log) agent.agentPubkey :=
            ⟨limit, count, List.mem_cons_of_mem _ List.mem_cons_self, List.mem_cons_self, not_le.mp below⟩
          have unconfirmed {entry : Entry Reply} (other : ¬ isConfirm entry) :
              ∀ earlier ∈ entry :: ⟨.sql .selectHourlyLimit, limit⟩ :: log, ¬ isConfirm earlier := by
            rintro earlier (_ | ⟨_, before⟩)
            · exact other
            · exact untouched.unconfirmed earlier before
          split
          · next some_key =>
            rw [Program.along_perform_bind]
            refine ⟨⟨passed.going, passed, unconfirmed id, rfl, some_key⟩, fun found => ?_⟩
            split
            · rw [Program.along_pure]
              exact .inr ⟨_, .found⟩
            · next absent =>
              refine (along_phase_settle accepted (passed.mono (List.suffix_cons _ _)) ?_ fun _ =>
                ⟨found, List.mem_cons_self, absent⟩).mono (fun _ _ held => held) fun _ _ ending => .inr ⟨_, ending⟩
              rintro earlier (_ | ⟨_, before⟩)
              · exact id
              · exact unconfirmed id earlier before
          · next no_key =>
            refine (along_phase_settle accepted passed (unconfirmed id) fun some_key =>
              absurd some_key no_key).mono (fun _ _ held => held) fun _ _ ending => .inr ⟨_, ending⟩
    · rw [Program.along_pure]
      exact .inl untouched

theorem along_phases (request : Request) :
    (handler e request).Along (Phases e request) (Endings request) [] := by
  cases request with
  | createCheckout r =>
      have session : (signedAgentSessionClaimsFromRequest e r).Along (fun log _ => Untouched log)
          (fun after claims =>
            (∀ agent, claims = some agent → Authorised e after r agent.agentPubkey) ∧ Untouched after) [] := by
        apply (along_signedAgentSession r).keeps
        · rintro entry ⟨⟩
        · intro log op reply checks untouched
          apply untouched.cons
          cases op with
          | sql statement => cases statement <;> first | rfl | cases checks
          | newUUID | randomNonce | now => rfl
      have checked := (along_signedAgentSession r).and session
      have whole : (createCheckout e r).Along (fun log op => Going log ∧ Phase e r log op) (fun log answer => Untouched log ∨
          ∃ agentPubkey, Ending agentPubkey (trimSpace r.idempotencyKey) log answer) [] := by
        refine (checked.mono (fun _ _ both => ⟨.inl both.2, phase_of_checks both.1⟩) fun _ _ both => both.2).sequence
          fun log claims _ ⟨_, untouched⟩ => ?_
        split
        · rw [Program.along_pure]
          exact .inl untouched
        · exact along_phase_create untouched
      refine whole.mono (fun _ _ held r' same => ?_) fun _ _ held r' same => ?_ <;>
      · cases same
        exact held
  | authNonce method agentPubkey | authToken method body =>
      refine (Program.along_grows _ _).mono (fun _ _ _ r same => ?_) fun _ _ _ r same => ?_ <;> cases same

section Threads
variable {cfg after : Service} {label : ServiceLabel}

/-- Settlement requests go through their phases, with the intents accounted for. -/
structure Phased (e : Environment) (cfg : Service) : Prop where
  settled : Settled e cfg
  disciplined : Disciplined (Phases e) Endings cfg
  justified : Justified (Phases e) cfg

theorem Phased.next (phased : Phased e cfg) (stepped : (machine e).next cfg label = some after) :
    Phased e after :=
  ⟨settled_next phased.settled stepped, disciplined_next along_phases phased.disciplined stepped,
    justified_next phased.disciplined phased.justified stepped⟩

theorem Unserved.phased (unserved : Unserved cfg) : Phased e cfg := by
  have nobody : ∀ thread, thread ∉ cfg.threads := by simp [unserved.threads]
  exact ⟨unserved.settled, fun thread member => absurd member (nobody thread),
    fun thread member => absurd member (nobody thread)⟩

theorem Phased.inserts (phased : Phased e cfg) {thread : ServiceThread} (member : thread ∈ cfg.threads)
    {intent : NewIntent} (issues : thread.Issues (.sql (.insertIntent intent))) :
    ∃ r, thread.request = .createCheckout r ∧ Phase e r thread.log (.sql (.insertIntent intent)) := by
  obtain ⟨_, _, r, request, _⟩ := phased.settled.disciplined.issues member issues
  exact ⟨r, request, (phased.disciplined.issues member issues r request).2⟩

theorem Phased.inserted (phased : Phased e cfg) {thread : ServiceThread} (member : thread ∈ cfg.threads)
    {intent : NewIntent} {reply : Except Fault Unit} (saw : thread.log.Saw (.sql (.insertIntent intent)) reply) :
    thread.log.Saw .newUUID intent.id ∧ ∃ r earlier, thread.request = .createCheckout r ∧
      earlier <:+ thread.log ∧ Phase e r earlier (.sql (.insertIntent intent)) := by
  obtain ⟨later, earlier, whole⟩ := List.append_of_mem saw
  have within : (⟨.sql (.insertIntent intent), reply⟩ : Entry Reply) :: earlier <:+ thread.log := ⟨later, whole.symm⟩
  obtain ⟨_, drew, r, request, _⟩ := phased.settled.justified thread member
    (.sql (.insertIntent intent)) reply earlier within
  have grown := (List.suffix_cons _ _).trans within
  exact ⟨drew.mono grown, r, earlier, request, grown,
    (phased.justified thread member (.sql (.insertIntent intent)) reply earlier within r request).2⟩

theorem Phased.counts_once (phased : Phased e cfg) {thread : ServiceThread} (member : thread ∈ cfg.threads)
    {r : CheckoutRequest} (request : thread.request = .createCheckout r) {entry entry' : Entry Reply}
    (among : entry ∈ thread.log) (among' : entry' ∈ thread.log) (counts : isCount entry)
    (counts' : isCount entry') : entry = entry' := by
  refine phased.justified.once member ?_ among among' counts counts'
  rintro log ⟨op, reply⟩ issues counts
  unfold isCount at counts
  split at counts
  · next same =>
    cases same
    have untouched := (issues r request).2.1
    intro earlier before counted
    unfold isCount at counted
    split at counted
    · cases untouched _ before
    · exact counted
  · exact counts.elim

theorem Phased.confirms_once (phased : Phased e cfg) {thread : ServiceThread} (member : thread ∈ cfg.threads)
    {r : CheckoutRequest} (request : thread.request = .createCheckout r) {entry entry' : Entry Reply}
    (among : entry ∈ thread.log) (among' : entry' ∈ thread.log) (confirms : isConfirm entry)
    (confirms' : isConfirm entry') : entry = entry' := by
  refine phased.justified.once member ?_ among among' confirms confirms'
  rintro log ⟨op, reply⟩ issues confirms
  unfold isConfirm at confirms
  split at confirms
  · next same =>
    cases same
    exact (issues r request).2.2.1
  · exact confirms.elim

end Threads

section Courses
open Agents

variable {allowed : Service → ServiceLabel → Bool}

def proceed (key : String) : Option AgentClaims → Handler Answer
  | none => pure (.error "Unauthorized" 401)
  | some claims => agentCheckoutCreate environment claims (replay key)

/-- The request has arrived, and its session and signature are accepted. -/
def admitted (cfg : Service) (key : String) : Service :=
  ⟨cfg.world, cfg.threads ++ [⟨.createCheckout (replay key), sessionLog cfg.world sessionClaims,
    agentCheckoutCreate environment sessionClaims (replay key)⟩]⟩

/-- Requests under these keys are admitted in turn, each followed by some steps. -/
def course (allowed : Service → ServiceLabel → Bool) :
    List (String × List ServiceLabel) → Service → Option Service
  | [], cfg => some cfg
  | (key, labels) :: rest, cfg =>
      if sessionOpen cfg.world && allowed cfg (.arrive (.createCheckout (replay key))) then
        ((machine environment).run allowed labels (admitted cfg key)).bind (course allowed rest)
      else none

/-- The checks of session and signature are among the allowed steps. -/
def FreeChecks (allowed : Service → ServiceLabel → Bool) : Prop :=
  ∀ (cfg : Service) (index : Nat) (choice : Choice) (thread : ServiceThread) (op : Op),
    cfg.threads[index]? = some thread → thread.Issues op → op.checks = true →
      allowed cfg (.step index choice) = true

theorem admitted_reached (free : FreeChecks allowed) {cfg : Service} {key : String}
    (live : sessionOpen cfg.world = true) (arrives : allowed cfg (.arrive (.createCheckout (replay key))) = true) :
    (machine environment).Reaches (fun cfg label => allowed cfg label = true) cfg (admitted cfg key) := by
  have accepted : Traces ((machine environment).performing fun _ => True) (signedAgentSessionClaimsFromRequest environment (replay key))
      cfg.world [] (some sessionClaims) cfg.world (sessionLog cfg.world sessionClaims) :=
    (acceptable_replay live key).accepted trivial
  have quiet := accepted.issues (along_signedAgentSession (replay key))
  have advanced : (machine environment).Reaches (fun cfg label => allowed cfg label = true)
      ⟨cfg.world, cfg.threads ++ [⟨.createCheckout (replay key), [], signedAgentSessionClaimsFromRequest environment (replay key) >>= proceed key⟩]⟩
      (admitted cfg key) := by
    apply traces_advance ?_ quiet cfg.threads []
    exact free
  exact (Reaches.tail _ (.refl _) arrives rfl).trans advanced

theorem course_reached (free : FreeChecks allowed) {plan : List (String × List ServiceLabel)}
    {cfg last : Service} (ran : course allowed plan cfg = some last) :
    (machine environment).Reaches (fun cfg label => allowed cfg label = true) cfg last := by
  induction plan generalizing cfg with
  | nil =>
      cases ran
      exact .refl _
  | cons step rest ih =>
      obtain ⟨key, labels⟩ := step
      simp only [course] at ran
      split at ran
      · next ready =>
        obtain ⟨live, arrives⟩ := Bool.and_eq_true_iff.mp ready
        obtain ⟨middle, went, later⟩ := Option.bind_eq_some_iff.mp ran
        exact ((admitted_reached free live arrives).trans
          (run_reaches (machine environment) allowed labels _ middle went)).trans (ih later)
      · cases ran

/-- A computed course that ends where `check` holds. -/
theorem course_meets (free : FreeChecks allowed) {plan : List (String × List ServiceLabel)} {cfg : Service}
    {check : Service → Bool} (computed : (course allowed plan cfg).any check = true) :
    ∃ last, (machine environment).Reaches (fun cfg label => allowed cfg label = true) cfg last ∧
      check last = true := by
  obtain ⟨last, ran, checked⟩ := (Option.any_eq_true _ _).mp computed
  exact ⟨last, course_reached free ran, checked⟩

def payingUnder (policy : PolicyRow) : Service :=
  { paying with world := { paying.world with policies := [policy] } }

theorem payingUnder_unserved (policy : PolicyRow) : Unserved (payingUnder policy) :=
  ⟨rfl, ⟨by simp [payingUnder, paying, opening], by simp [payingUnder, paying, opening]⟩,
    by simp [payingUnder, paying, opening]⟩

def settling (index : Nat) (intentID txID : String) : List ServiceLabel :=
  random intentID index :: steps index 1 ++ random txID index :: steps index 1

end Courses

end Payknot.AgentRuntime
