import Payknot.HourlyLimit
import Mathlib.Algebra.Order.Field.Rat
import Mathlib.Tactic.Linarith
import Mathlib.Tactic.NormNum

/-! What the policy table decides about a settlement. The handler bounds the amount by a
constant and takes any address for a recipient; of the active row it reads the hourly
limit alone. -/
namespace Payknot.AgentRuntime
open GoText Interleaving Machine

variable {e : Environment} {cfg after init last : Service} {label : ServiceLabel} {agentPubkey : String}
  {limit : Nat}

def readsSucceed (cfg : Service) (label : ServiceLabel) : Bool :=
  match label, performed cfg label with
  | .step _ choice, some (.sql .selectHourlyLimit) | .step _ choice, some (.sql (.countHour _)) =>
      choice.fault.isNone
  | _, _ => true

section Column

theorem numeric6_of_nonneg {value : Rat} (nonneg : 0 ≤ value) :
    numeric6 value = (value * 1000000 + 1 / 2).floor / 1000000 := if_pos nonneg

theorem numeric6_mono {value bound : Rat} (nonneg : 0 ≤ value) (le : value ≤ bound) :
    numeric6 value ≤ numeric6 bound := by
  rw [numeric6_of_nonneg nonneg, numeric6_of_nonneg (nonneg.trans le)]
  have floors : (value * 1000000 + 1 / 2).floor ≤ (bound * 1000000 + 1 / 2).floor :=
    Rat.floor_monotone (by linarith)
  have casts : ((value * 1000000 + 1 / 2).floor : Rat) ≤ (bound * 1000000 + 1 / 2).floor := Int.cast_le.mpr floors
  exact div_le_div_of_nonneg_right casts (by norm_num)

/-- The column keeps an amount that the handler accepts between 0 and its bound of 500. -/
theorem numeric6_bounds {value : Rat} (positive : 0 < value) (ceiling : value ≤ 500) :
    0 ≤ numeric6 value ∧ numeric6 value ≤ 500 := by
  have zero : numeric6 0 = 0 := by decide +kernel
  have top : numeric6 500 = 500 := by decide +kernel
  constructor
  · rw [← zero]
    exact numeric6_mono le_rfl positive.le
  · rw [← top]
    exact numeric6_mono positive.le ceiling

end Column

-- A row that comes to be confirmed is confirmed by the request that recorded it.
theorem confirmed_by (stepped : (machine e).next cfg label = some after) {row : IntentRow}
    (member : row ∈ after.world.intents) (confirmed : row.status = .confirmed)
    (newly : ∀ old ∈ cfg.world.intents, old.id = row.id → old.status ≠ .confirmed) :
    ∃ thread ∈ cfg.threads, ∃ txSignature, thread.Issues (.sql (.confirmIntent row.id txSignature)) ∧
      ∃ old ∈ cfg.world.intents, old.id = row.id ∧ row.inserted = old.inserted := by
  have changed {old : IntentRow} (among : old ∈ cfg.world.intents) : row ≠ old := by
    rintro rfl
    exact newly row among rfl confirmed
  rcases next_cases stepped with ⟨_, _, rfl⟩ | ⟨_, _, _, occurred, rfl⟩ |
    ⟨index, choice, thread, op, rest, reply, world, _, at_index, program, executed, rfl⟩
  · exact absurd rfl (changed member)
  · cases occurred
    exact absurd rfl (changed member)
  · change row ∈ world.intents at member
    have served := List.mem_of_getElem? at_index
    cases effect : exec_effect executed with
    | recorded =>
        rcases List.mem_append.mp member with old | fresh
        · exact absurd rfl (changed old)
        · rw [List.mem_singleton.mp fresh] at confirmed
          cases confirmed
    | confirmed id txSignature =>
        obtain ⟨old, among, same⟩ := List.mem_map.mp member
        split at same
        · next named =>
          subst named
          cases same
          exact ⟨thread, served, txSignature, ⟨rest, program⟩, old, among, rfl, rfl⟩
        · exact absurd same.symm (changed among)
    | failed id =>
        obtain ⟨old, among, same⟩ := List.mem_map.mp member
        split at same
        · rw [← same] at confirmed
          cases confirmed
        · exact absurd same.symm (changed among)
    | unchanged | drawn | nonce | marked | session => exact absurd rfl (changed member)

-- What it was recorded with has passed the policy checks.
theorem Phased.confirmed_terms (phased : Phased e cfg) (stepped : (machine e).next cfg label = some after)
    {row : IntentRow} (member : row ∈ after.world.intents) (confirmed : row.status = .confirmed)
    (newly : ∀ old ∈ cfg.world.intents, old.id = row.id → old.status ≠ .confirmed) :
    ∃ thread ∈ cfg.threads, inFlight row.agentPubkey thread = true ∧ ∃ intent, row.Stores intent ∧
      thread.log.Saw (.sql (.insertIntent intent)) (.ok ()) ∧ Bounded e intent := by
  obtain ⟨thread, served, txSignature, issues, old, among, named, same⟩ := confirmed_by stepped member confirmed newly
  obtain ⟨intent, reply, of_id, saw⟩ := phased.settled.disciplined.issues served issues
  have drew : thread.log.Saw .newUUID old.id := by
    rw [named, ← of_id]
    exact (phased.inserted served saw).1
  obtain ⟨stored, columns, stores⟩ := phased.settled.recorded thread served old among drew
  obtain ⟨_, _, _, _, _, _, bounded, _⟩ := phased.inserted served stores
  have agent := IntentRow.same_agent same
  have flying := phased.confirms_flying served issues among named
  exact ⟨thread, served, agent ▸ flying, stored, columns.restated same, stores, bounded⟩

-- Who counts while nobody else is being served has all the room there is.
theorem Phased.spaced_alone (phased : Phased e cfg) (one : AtMostOneBusy cfg)
    (sound : readsSucceed cfg label = true) : Spaced agentPubkey limit cfg label := by
  constructor
  · rintro index choice thread rfl at_index issues
    have performs : performed cfg (.step index choice : ServiceLabel) = some _ :=
      Performs.performed ⟨⟨choice, rfl⟩, at_index, issues⟩
    simp only [readsSucceed, performs, Option.isNone_iff_eq_none] at sound
    exact .inl sound
  · rintro index choice thread rfl at_index issues
    have performing : Performs cfg (.step index choice : ServiceLabel) index thread _ :=
      ⟨⟨choice, rfl⟩, at_index, issues⟩
    simp only [readsSucceed, performing.performed, Option.isNone_iff_eq_none] at sound
    have nobody : cfg.threads.countP (inFlight agentPubkey) = 0 := by
      rw [List.countP_eq_zero]
      intro other member flying
      obtain ⟨⟨r, request⟩, ⟨count, counted⟩, _, unfinished⟩ := inFlight_iff.mp flying
      obtain ⟨j, at_j⟩ := List.mem_iff_getElem?.mp member
      by_cases here : j = index
      · subst here
        cases at_j.symm.trans at_index
        have untouched := (phased.disciplined.issues member issues r request).2.1
        cases untouched _ counted
      · have ended := one.others performing j other here at_j
        rw [ended] at unfinished
        cases unfinished
    rw [nobody]
    rcases Nat.lt_or_ge (cfg.world.hourCount agentPubkey) limit with room | reached
    · exact .inr room
    · exact .inl ⟨sound, reached⟩

/-- Complete requests one after another, any policy table. An intent that becomes confirmed was
asked for with an amount above 0 and at most 500, which its row has to six decimals, with a memo
and to a valid address; and the agent's confirmed intents of the hour, this one included, are
within the active row's hourly limit. -/
theorem settlements_within_policy (unserved : Unserved init)
    (run : (machine e).Reaches (fun cfg label => oneAtATime cfg label = true ∧ readsSucceed cfg label = true)
      init cfg) (stepped : (machine e).next cfg label = some after) {row : IntentRow}
    (member : row ∈ after.world.intents) (confirmed : row.status = .confirmed)
    (newly : ∀ old ∈ cfg.world.intents, old.id = row.id → old.status ≠ .confirmed) :
    (∃ thread ∈ cfg.threads, ∃ intent, thread.log.Saw (.sql (.insertIntent intent)) (.ok ()) ∧
      row.Stores intent ∧ 0 < intent.amountUSDC ∧ intent.amountUSDC ≤ 500) ∧
    0 ≤ row.amountUSDC ∧ row.amountUSDC ≤ 500 ∧ row.memo ≠ "" ∧
    e.publicKeyFromBase58 row.recipientWallet = true ∧
    (after.world.spent row.agentPubkey : Int) ≤ init.world.hourlyLimit := by
  have start : AtMostOneBusy init := by
    intro i j first second at_i
    rw [unserved.threads] at at_i
    cases at_i
  have alone := (run.alone start).1
  obtain ⟨limit, policy⟩ := Int.eq_ofNat_of_zero_le (Int.le_of_lt (scannedLimit_pos
    (.ok ((init.world.policies.find? (·.active)).map (·.hourlyTxLimit)))))
  have metered : Metered e row.agentPubkey limit cfg := by
    apply alone.invariant (Metered e row.agentPubkey limit)
    · exact unserved.metered policy
    · rintro cfg label after metered ⟨one, sound⟩ stepped
      exact metered.next (metered.phased.spaced_alone one sound) stepped
  obtain ⟨thread, served, flying, intent, stores, saw, bounded⟩ :=
    metered.phased.confirmed_terms stepped member confirmed newly
  have amount : row.amountUSDC = numeric6 intent.amountUSDC := congrArg IntentRow.amountUSDC stores
  have memo : row.memo = intent.memo := congrArg IntentRow.memo stores
  have recipient : row.recipientWallet = intent.recipient := congrArg IntentRow.recipientWallet stores
  obtain ⟨nonneg, ceiling⟩ := numeric6_bounds bounded.positive bounded.ceiling
  refine ⟨⟨thread, served, intent, saw, stores, bounded.positive, bounded.ceiling⟩, ?_, ?_, ?_, ?_, ?_⟩
  · rw [amount]
    exact nonneg
  · rw [amount]
    exact ceiling
  · rw [memo]
    exact bounded.memo
  · rw [recipient]
    exact bounded.recipient
  · have within := metered.spent_flying stepped served flying
    have read : init.world.hourlyLimit = limit := policy
    rw [read]
    exact Int.ofNat_le.mpr within

section Meetup
open Agents

theorem reads_free : FreeChecks fun cfg label => oneAtATime cfg label && readsSucceed cfg label := by
  intro cfg index choice thread op at_index issues checks
  have performs : performed cfg (.step index choice : ServiceLabel) = some op :=
    Performs.performed ⟨⟨choice, rfl⟩, at_index, issues⟩
  simp only [oneAtATime, readsSucceed, performs, Bool.true_and]
  cases op with
  | sql statement => cases statement <;> first | rfl | cases checks
  | newUUID | randomNonce | now => rfl

/-- A policy that the request of the examples breaks in every respect: half a USDC at
most, in one payment and in a day, and to another address. -/
def strict : PolicyRow :=
  ⟨1 / 2, 10, some (1 / 2), some ["So11111111111111111111111111111111111111112"], true⟩

def IntentRow.pays (row : IntentRow) : Bool :=
  row.status = .confirmed && (row.amountUSDC = 1 && row.recipientWallet = "11111111111111111111111111111111")

theorem IntentRow.pays_iff {row : IntentRow} : row.pays = true ↔
    row.status = .confirmed ∧ row.amountUSDC = 1 ∧ row.recipientWallet = "11111111111111111111111111111111" := by
  simp [pays]

/-- One complete request: confirmed, against every other column of the only policy row. -/
theorem policy_row_disobeyed : ∃ (last : Service) (row : IntentRow),
    Unserved (payingUnder strict) ∧ (payingUnder strict).world.policies = [strict] ∧ strict.active = true ∧
    (machine environment).Reaches (fun cfg label => oneAtATime cfg label = true) (payingUnder strict) last ∧
    idle last = true ∧ (payingUnder strict).world.intents = [] ∧ row ∈ last.world.intents ∧
    row.status = .confirmed ∧ strict.maxAmountUSDC < row.amountUSDC ∧
    (∃ allowlist, strict.recipientAllowlist = some allowlist ∧ row.recipientWallet ∉ allowlist) ∧
    (∃ daily, strict.dailyAmountLimitUSDC = some daily ∧ daily < row.amountUSDC) := by
  have ran : (course oneAtATime [("", steps 0 2 ++ settling 0 firstIntent firstTx)] (payingUnder strict)).any
      (fun last => idle last && last.world.intents.any (·.pays)) = true := by decide +kernel
  obtain ⟨last, run, done⟩ := course_meets (fun _ _ _ _ _ _ _ _ => rfl) ran
  obtain ⟨rested, pays⟩ := Bool.and_eq_true_iff.mp done
  obtain ⟨row, present, pays⟩ := List.any_eq_true.mp pays
  obtain ⟨status, amount, recipient⟩ := IntentRow.pays_iff.mp pays
  refine ⟨last, row, payingUnder_unserved _, rfl, rfl, run, rested, rfl, present, status, ?_, ⟨_, rfl, ?_⟩, _, rfl, ?_⟩
  · rw [amount]
    decide +kernel
  · rw [recipient]
    decide
  · rw [amount]
    decide +kernel

/-- Under the same policy, a second settlement is about to be confirmed. -/
theorem settlements_within_policy_meetup : ∃ (cfg after : Service) (label : ServiceLabel) (row : IntentRow),
    (machine environment).next cfg label = some after ∧ row ∈ after.world.intents ∧ row.status = .confirmed ∧
    cfg.world.spent Agents.agentPubkey = 1 ∧ row.amountUSDC ≤ 500 ∧
    (after.world.spent row.agentPubkey : Int) ≤ 10 := by
  have ran : (course (fun cfg label => oneAtATime cfg label && readsSucceed cfg label)
      [("", steps 0 2 ++ settling 0 firstIntent firstTx),
        ("", steps 1 2 ++ (settling 1 secondIntent secondTx).dropLast)] (payingUnder strict)).any
      (fun cfg => cfg.world.spent Agents.agentPubkey = 1 &&
        (cfg.world.intents.all (fun old => old.id ≠ secondIntent || old.status ≠ .confirmed) &&
        ((machine environment).next cfg (.step 1 ⟨none, none⟩)).any fun after =>
          after.world.intents.any fun row => row.id = secondIntent && row.pays)) = true := by decide +kernel
  obtain ⟨cfg, run, done⟩ := course_meets reads_free ran
  simp only [Bool.and_eq_true, decide_eq_true_eq, List.all_eq_true, Bool.or_eq_true, Option.any_eq_true,
    List.any_eq_true] at done
  obtain ⟨spent, queued, after, stepped, row, member, id, pays⟩ := done
  have confirmed := (IntentRow.pays_iff.mp pays).1
  obtain ⟨_, _, ceiling, _, _, within⟩ := settlements_within_policy (payingUnder_unserved strict)
    (run.mono fun _ _ both => Bool.and_eq_true_iff.mp both) stepped member confirmed (by
      intro old among same
      rcases queued old among with other | waiting
      · exact absurd (same.trans id) other
      · exact waiting)
  exact ⟨cfg, after, _, row, stepped, member, confirmed, spent, ceiling, within⟩

end Meetup

end Payknot.AgentRuntime
