import Mathlib.Data.List.Basic

/-! Loops over a list that may stop at an item. Such a loop is a search for the first
item that stops it and, where there is none, a fold; two loops over one list are
compared through what stops each of them. -/
namespace Scanning

universe u v w
variable {Item : Type u} {State : Type v} {Reason : Type w}

/-- The loop ends at an item that stops it, and takes any other into its state. -/
def run (stop : Item → Option Reason) (step : State → Item → State) :
    List Item → State → Except Reason State
  | [], state => .ok state
  | item :: rest, state =>
      match stop item with
      | some reason => .error reason
      | none => run stop step rest (step state item)

variable {stop : Item → Option Reason} {step : State → Item → State}

theorem run_ok_iff {items : List Item} {state last : State} :
    run stop step items state = .ok last ↔
      (∀ item ∈ items, stop item = none) ∧ items.foldl step state = last := by
  induction items generalizing state with
  | nil => simp [run]
  | cons item rest ih =>
      rw [run]
      cases stops : stop item with
      | some reason => simp [stops]
      | none =>
          simp only [List.mem_cons, forall_eq_or_imp, stops, true_and, List.foldl_cons]
          exact ih

theorem run_error_iff {items : List Item} {state : State} {reason : Reason} :
    run stop step items state = .error reason ↔ ∃ before item after, items = before ++ item :: after ∧
      stop item = some reason ∧ ∀ earlier ∈ before, stop earlier = none := by
  induction items generalizing state with
  | nil => simp [run]
  | cons item rest ih =>
      rw [run]
      cases stops : stop item with
      | some found =>
          constructor
          · intro same
            cases same
            exact ⟨[], item, rest, rfl, stops, by simp⟩
          · rintro ⟨before, ended, after, same, by_end, passed⟩
            cases before with
            | nil =>
                cases same
                rw [stops] at by_end
                cases by_end
                rfl
            | cons first before =>
                cases same
                simp [stops] at passed
      | none =>
          rw [ih]
          constructor
          · rintro ⟨before, ended, after, rfl, by_end, passed⟩
            refine ⟨item :: before, ended, after, rfl, by_end, ?_⟩
            rintro earlier (_ | ⟨_, among⟩)
            · exact stops
            · exact passed earlier among
          · rintro ⟨before, ended, after, same, by_end, passed⟩
            cases before with
            | nil =>
                cases same
                rw [stops] at by_end
                cases by_end
            | cons first before =>
                cases same
                exact ⟨before, ended, after, rfl, by_end, fun earlier among =>
                  passed earlier (List.mem_cons_of_mem _ among)⟩

theorem exists_first (kind : Item → Prop) {items : List Item} (some_item : ∃ item ∈ items, kind item) :
    ∃ before item after, items = before ++ item :: after ∧ kind item ∧ ∀ earlier ∈ before, ¬ kind earlier := by
  induction items with
  | nil => simp at some_item
  | cons first rest ih =>
      by_cases here : kind first
      · exact ⟨[], first, rest, rfl, here, by simp⟩
      · have later : ∃ item ∈ rest, kind item := by
          obtain ⟨item, member, is_kind⟩ := some_item
          rcases List.mem_cons.mp member with rfl | among
          · exact absurd is_kind here
          · exact ⟨item, among, is_kind⟩
        obtain ⟨before, item, after, rfl, is_kind, none_before⟩ := ih later
        refine ⟨first :: before, item, after, rfl, is_kind, ?_⟩
        rintro earlier (_ | ⟨_, among⟩)
        · exact here
        · exact none_before earlier among

-- A flag of the state is raised by the items that raise it, in any order.
theorem foldl_flag (flag : State → Bool) (step : State → Item → State) {raises : Item → Bool}
    (steps : ∀ state item, flag (step state item) = (flag state || raises item)) (items : List Item)
    (state : State) : flag (items.foldl step state) = (flag state || items.any raises) := by
  induction items generalizing state with
  | nil => simp
  | cons item rest ih => rw [List.foldl_cons, ih, steps, List.any_cons, Bool.or_assoc]

-- A field of the state is as the last item that writes it left it.
theorem foldl_last {Value : Type*} (field : State → Value) (writes : Item → Option Value)
    (step : State → Item → State)
    (steps : ∀ state item, field (step state item) = (writes item).getD (field state))
    (items : List Item) (state : State) :
    (∀ item ∈ items, writes item = none) ∧ field (items.foldl step state) = field state ∨
      ∃ before item after value, items = before ++ item :: after ∧ writes item = some value ∧
        (∀ later ∈ after, writes later = none) ∧ field (items.foldl step state) = value := by
  induction items generalizing state with
  | nil => exact .inl ⟨by simp, rfl⟩
  | cons item rest ih =>
      rcases ih (step state item) with ⟨none_after, same⟩ |
        ⟨before, last, after, value, rfl, wrote, none_after, same⟩
      · rw [List.foldl_cons, same, steps]
        cases wrote : writes item with
        | none => exact .inl ⟨by simpa [wrote] using none_after, rfl⟩
        | some value => exact .inr ⟨[], item, rest, value, rfl, wrote, none_after, rfl⟩
      · exact .inr ⟨item :: before, last, after, value, rfl, wrote, none_after, same⟩

end Scanning
