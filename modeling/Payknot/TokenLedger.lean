import Mathlib.Algebra.Ring.Nat
import Mathlib.Logic.Function.Basic
import Mathlib.Tactic.Common

/-! Token accounts and the transfers between them, under the authority rule of a token
program: the owner of the source, or its delegate up to the delegated amount. -/
namespace TokenLedger

universe u
variable {Address : Type u} [DecidableEq Address]

structure Account (Address : Type u) where
  mint : Address
  owner : Address
  amount : Nat
  delegate : Option Address
  delegatedAmount : Nat

abbrev Ledger (Address : Type u) := Address → Option (Account Address)

structure Transfer (Address : Type u) where
  source : Address
  dest : Address
  authority : Address
  amount : Nat

/-- A delegate spends its allowance and is dismissed with the last of it. -/
def Account.spend (account : Account Address) (amount : Nat) : Account Address :=
  { account with
    delegate := if account.delegatedAmount = amount then none else account.delegate
    delegatedAmount := account.delegatedAmount - amount }

def Account.authorise (account : Account Address) (authority : Address) (amount : Nat) :
    Option (Account Address) :=
  if account.delegate = some authority then
    if account.delegatedAmount < amount then none else some (account.spend amount)
  else if account.owner = authority then some account
  else none

/-- A transfer from an account to itself is checked and changes nothing. -/
def Transfer.apply (transfer : Transfer Address) (ledger : Ledger Address) : Option (Ledger Address) :=
  match ledger transfer.source, ledger transfer.dest with
  | some source, some dest =>
      if source.amount < transfer.amount ∨ source.mint ≠ dest.mint then none
      else
        match source.authorise transfer.authority transfer.amount with
        | none => none
        | some debited =>
            if transfer.source = transfer.dest then some ledger
            else if 2 ^ 64 ≤ dest.amount + transfer.amount then none
            else some (Function.update
              (Function.update ledger transfer.source (some { debited with amount := source.amount - transfer.amount }))
              transfer.dest (some { dest with amount := dest.amount + transfer.amount }))
  | _, _ => none

def run : List (Transfer Address) → Ledger Address → Option (Ledger Address)
  | [], ledger => some ledger
  | transfer :: rest, ledger => (transfer.apply ledger).bind (run rest)

def credited (account : Address) (transfers : List (Transfer Address)) : Nat :=
  (transfers.map fun transfer => if transfer.dest = account then transfer.amount else 0).sum

def debited (account : Address) (transfers : List (Transfer Address)) : Nat :=
  (transfers.map fun transfer => if transfer.source = account then transfer.amount else 0).sum

def Untouched (account : Address) (transfers : List (Transfer Address)) : Prop :=
  ∀ transfer ∈ transfers, transfer.source = account → transfer.amount = 0

section Lemmas
variable {transfer : Transfer Address} {transfers : List (Transfer Address)} {ledger after : Ledger Address}
variable {address : Address}

@[simp] theorem credited_nil : credited address [] = 0 := rfl
@[simp] theorem debited_nil : debited address [] = 0 := rfl

@[simp] theorem credited_cons : credited address (transfer :: transfers) =
    (if transfer.dest = address then transfer.amount else 0) + credited address transfers := by
  simp [credited]

@[simp] theorem debited_cons : debited address (transfer :: transfers) =
    (if transfer.source = address then transfer.amount else 0) + debited address transfers := by
  simp [debited]

theorem credited_append (first second : List (Transfer Address)) :
    credited address (first ++ second) = credited address first + credited address second := by
  simp [credited]

theorem debited_eq_zero_iff : debited address transfers = 0 ↔ Untouched address transfers := by
  induction transfers with
  | nil => simp [Untouched]
  | cons transfer rest ih =>
      rw [debited_cons, Nat.add_eq_zero_iff, ih]
      simp [Untouched]

theorem le_credited (among : transfer ∈ transfers) (pays : transfer.dest = address) :
    transfer.amount ≤ credited address transfers := by
  obtain ⟨before, after, rfl⟩ := List.append_of_mem among
  rw [credited_append, credited_cons, if_pos pays]
  omega

theorem credited_sole (among : transfer ∈ transfers) (pays : transfer.dest = address)
    (sole : transfers.countP (fun transfer => transfer.dest = address) ≤ 1) :
    credited address transfers = transfer.amount := by
  obtain ⟨before, after, rfl⟩ := List.append_of_mem among
  have nothing {others : List (Transfer Address)} (none_pays : others.countP (fun other => other.dest = address) = 0) :
      credited address others = 0 := by
    induction others with
    | nil => rfl
    | cons other rest ih =>
        have elsewhere : ∀ transfer ∈ other :: rest, ¬ transfer.dest = address := by
          simpa using List.countP_eq_zero.mp none_pays
        rw [credited_cons, if_neg (elsewhere other List.mem_cons_self), Nat.zero_add]
        exact ih (List.countP_eq_zero.mpr (by simpa using fun t member => elsewhere t (List.mem_cons_of_mem _ member)))
  rw [List.countP_append, List.countP_cons_of_pos (by simpa using pays)] at sole
  rw [credited_append, credited_cons, if_pos pays, nothing (by omega), nothing (by omega), Nat.zero_add, Nat.add_zero]

theorem authorise_cases {account debited : Account Address} {authority : Address} {amount : Nat}
    (authorised : account.authorise authority amount = some debited) :
    (account.delegate = some authority ∨ account.owner = authority) ∧ debited.owner = account.owner ∧
      (debited.delegate = account.delegate ∨ debited.delegate = none) := by
  unfold Account.authorise at authorised
  split at authorised
  · next by_delegate =>
    split at authorised
    · cases authorised
    · cases authorised
      refine ⟨.inl by_delegate, rfl, ?_⟩
      unfold Account.spend
      split
      · exact .inr rfl
      · exact .inl rfl
  · split at authorised
    · next by_owner =>
      cases authorised
      exact ⟨.inr by_owner, rfl, .inl rfl⟩
    · cases authorised

/-- What one transfer does: it is authorised, accounts keep their owners, a delegate stays or
is dismissed, and every balance moves by what the transfer pays into and takes out of it. -/
theorem apply_spec (applied : transfer.apply ledger = some after) :
    (∃ source, ledger transfer.source = some source ∧
      (source.delegate = some transfer.authority ∨ source.owner = transfer.authority)) ∧
    ∀ address account, ledger address = some account → ∃ later, after address = some later ∧
      later.owner = account.owner ∧ (later.delegate = account.delegate ∨ later.delegate = none) ∧
      later.amount + debited address [transfer] = account.amount + credited address [transfer] := by
  unfold Transfer.apply at applied
  cases at_source : ledger transfer.source with
  | none => simp [at_source] at applied
  | some source =>
      cases at_dest : ledger transfer.dest with
      | none => simp [at_source, at_dest] at applied
      | some dest =>
          simp only [at_source, at_dest] at applied
          split at applied
          · cases applied
          · next covered =>
            cases authorised : source.authorise transfer.authority transfer.amount with
            | none => simp [authorised] at applied
            | some drawn =>
                simp only [authorised] at applied
                obtain ⟨authority, same_owner, dismissed⟩ := authorise_cases authorised
                refine ⟨⟨source, rfl, authority⟩, fun address account present => ?_⟩
                split at applied
                · next self =>
                  cases applied
                  exact ⟨account, present, rfl, .inl rfl, by simp [self]⟩
                · next apart =>
                  split at applied
                  · cases applied
                  · cases applied
                    by_cases is_dest : address = transfer.dest
                    · subst is_dest
                      rw [at_dest] at present
                      cases present
                      exact ⟨_, Function.update_self .., rfl, .inl rfl, by simp [apart]⟩
                    · by_cases is_source : address = transfer.source
                      · subst is_source
                        rw [at_source] at present
                        cases present
                        refine ⟨_, (Function.update_of_ne apart _ _).trans (Function.update_self ..), same_owner, dismissed, ?_⟩
                        simp only [debited_cons, credited_cons, Ne.symm apart, if_true, if_false, debited_nil,
                          credited_nil]
                        omega
                      · refine ⟨account, ?_, rfl, .inl rfl, by simp [Ne.symm is_dest, Ne.symm is_source]⟩
                        rw [Function.update_of_ne is_dest, Function.update_of_ne is_source]
                        exact present

/-- A run moves every balance by what it pays in and takes out, and keeps the owner. -/
theorem run_balance (ran : run transfers ledger = some after) {account : Account Address}
    (present : ledger address = some account) : ∃ later, after address = some later ∧
      later.owner = account.owner ∧ later.amount + debited address transfers =
        account.amount + credited address transfers := by
  induction transfers generalizing ledger account with
  | nil =>
      cases ran
      exact ⟨account, present, rfl, rfl⟩
  | cons transfer rest ih =>
      obtain ⟨middle, applied, ran⟩ := Option.bind_eq_some_iff.mp ran
      obtain ⟨between, there, owner, _, moved⟩ := (apply_spec applied).2 address account present
      obtain ⟨later, at_end, owner', moved'⟩ := ih ran there
      refine ⟨later, at_end, owner'.trans owner, ?_⟩
      simp only [debited_cons, credited_cons, debited_nil, credited_nil] at moved ⊢
      omega

/-- Whoever takes from an account in a run is its owner, or the delegate it began with. -/
theorem run_authority (ran : run transfers ledger = some after) {account : Account Address}
    (present : ledger address = some account) (among : transfer ∈ transfers) (takes : transfer.source = address) :
    transfer.authority = account.owner ∨ account.delegate = some transfer.authority := by
  induction transfers generalizing ledger account with
  | nil => cases among
  | cons first rest ih =>
      obtain ⟨next, applied, ran⟩ := Option.bind_eq_some_iff.mp ran
      rcases List.mem_cons.mp among with rfl | later
      · obtain ⟨⟨source, at_source, authority⟩, _⟩ := apply_spec applied
        rw [takes, present] at at_source
        cases at_source
        exact authority.symm.imp_left Eq.symm
      · obtain ⟨between, there, owner, dismissed, _⟩ := (apply_spec applied).2 address account present
        rcases ih ran there later with by_owner | by_delegate
        · exact .inl (by_owner.trans owner)
        · rcases dismissed with stays | gone
          · exact .inr (stays.symm.trans by_delegate)
          · rw [gone] at by_delegate
            cases by_delegate

end Lemmas
end TokenLedger
