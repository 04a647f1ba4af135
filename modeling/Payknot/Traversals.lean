import Payknot.GoText
import Mathlib.Data.List.Perm.Basic

/-! Walks over decoded JSON. A walk meets the members of an object in an order nobody
fixes, and the items of an array in theirs; which candidate it can meet first is computed
from the document alone. -/
namespace GoText

variable {Candidate Value : Type}

section Orders

mutual
/-- The same document with the members of its objects in any order. -/
def Reordered : Json → Json → Prop
  | .arr items, other => ∃ items', other = .arr items' ∧ ReorderedItems items items'
  | .obj members, other =>
      ∃ middle members', other = .obj members' ∧ ReorderedMembers members middle ∧ middle.Perm members'
  | .null, other => other = .null
  | .bool value, other => other = .bool value
  | .num bits, other => other = .num bits
  | .str value, other => other = .str value
def ReorderedItems : List Json → List Json → Prop
  | [], others => others = []
  | item :: rest, others => ∃ item' rest', others = item' :: rest' ∧ Reordered item item' ∧ ReorderedItems rest rest'
def ReorderedMembers : Object → Object → Prop
  | [], others => others = []
  | (key, value) :: rest, others =>
      ∃ value' rest', others = (key, value') :: rest' ∧ Reordered value value' ∧ ReorderedMembers rest rest'
end

mutual
def Distinct : Json → Prop
  | .arr items => DistinctItems items
  | .obj members => (members.map Prod.fst).Nodup ∧ DistinctMembers members
  | _ => True
def DistinctItems : List Json → Prop
  | [] => True
  | item :: rest => Distinct item ∧ DistinctItems rest
def DistinctMembers : Object → Prop
  | [] => True
  | (_, value) :: rest => Distinct value ∧ DistinctMembers rest
end

mutual
theorem reordered_refl : ∀ json : Json, Reordered json json
  | .null | .bool _ | .num _ | .str _ => rfl
  | .arr items => ⟨items, rfl, reorderedItems_refl items⟩
  | .obj members => ⟨members, members, rfl, reorderedMembers_refl members, .refl members⟩
theorem reorderedItems_refl : ∀ items : List Json, ReorderedItems items items
  | [] => rfl
  | item :: rest => ⟨item, rest, rfl, reordered_refl item, reorderedItems_refl rest⟩
theorem reorderedMembers_refl : ∀ members : Object, ReorderedMembers members members
  | [] => rfl
  | (_, value) :: rest => ⟨value, rest, rfl, reordered_refl value, reorderedMembers_refl rest⟩
end

variable {members middle members' : Object} {key : String}

theorem ReorderedMembers.keys (reordered : ReorderedMembers members middle) :
    middle.map Prod.fst = members.map Prod.fst := by
  induction members generalizing middle with
  | nil =>
      rw [show middle = [] from reordered]
  | cons member rest ih =>
      obtain ⟨value', rest', rfl, _, tail⟩ := reordered
      rw [List.map_cons, List.map_cons, ih tail]

theorem ReorderedMembers.lookup (reordered : ReorderedMembers members middle) (key : String) :
    Reordered (lookup members key) (GoText.lookup middle key) := by
  induction members generalizing middle with
  | nil =>
      rw [show middle = [] from reordered]
      exact reordered_refl _
  | cons first rest ih =>
      obtain ⟨value', rest', rfl, inside, tail⟩ := reordered
      by_cases here : first.1 = key
      · simpa [GoText.lookup, here] using inside
      · simpa [GoText.lookup, here] using ih tail

-- With distinct keys it does not matter where a member stands.
theorem lookup_perm (same : middle.Perm members') (distinct : (middle.map Prod.fst).Nodup) (key : String) :
    lookup members' key = lookup middle key := by
  induction same with
  | nil => rfl
  | cons member _ ih =>
      rw [List.map_cons, List.nodup_cons] at distinct
      by_cases here : member.1 = key
      · simp [lookup, here]
      · simpa [lookup, here] using ih distinct.2
  | swap first second rest =>
      simp only [List.map_cons, List.nodup_cons, List.mem_cons, not_or] at distinct
      by_cases at_first : first.1 = key
      · have at_second : second.1 ≠ key := fun at_second => distinct.1.1 (at_second.trans at_first.symm)
        simp [lookup, at_first, at_second]
      · by_cases at_second : second.1 = key
        · simp [lookup, at_first, at_second]
        · simp [lookup, at_first, at_second]
  | trans one two ih_one ih_two =>
      rw [ih_two ((one.map Prod.fst).nodup_iff.mp distinct), ih_one distinct]

-- What a lookup finds in another order is what it found, reordered inside.
theorem Reordered.lookup (reordered : Reordered (.obj members) (.obj members'))
    (distinct : (members.map Prod.fst).Nodup) (key : String) :
    Reordered (lookup members key) (GoText.lookup members' key) := by
  obtain ⟨middle, _, same, inside, perm⟩ := reordered
  cases same
  rw [lookup_perm perm (inside.keys ▸ distinct)]
  exact inside.lookup key

/-- `_, ok := members[key]` -/
def hasKey (members : Object) (key : String) : Bool := (members.map Prod.fst).contains key

theorem Reordered.hasKey (reordered : Reordered (.obj members) (.obj members')) (key : String) :
    GoText.hasKey members' key = GoText.hasKey members key := by
  obtain ⟨middle, _, same, inside, perm⟩ := reordered
  cases same
  have keys := (perm.map Prod.fst).mem_iff (a := key)
  rw [inside.keys] at keys
  rw [Bool.eq_iff_iff, GoText.hasKey, GoText.hasKey, List.contains_iff_mem, List.contains_iff_mem, keys]

end Orders

section Walks

mutual
/-- The candidates a walk meets: an object's own before those of its members. -/
def candidates (own : Object → List Candidate) : Json → List Candidate
  | .obj members => own members ++ memberCandidates own members
  | .arr items => itemCandidates own items
  | _ => []
def itemCandidates (own : Object → List Candidate) : List Json → List Candidate
  | [] => []
  | item :: rest => candidates own item ++ itemCandidates own rest
def memberCandidates (own : Object → List Candidate) : Object → List Candidate
  | [] => []
  | (_, value) :: rest => candidates own value ++ memberCandidates own rest
end

mutual
/-- The candidates with `q` that can be the first one met. -/
def firsts (own : Object → List Candidate) (q : Candidate → Bool) : Json → List Candidate
  | .obj members =>
      match (own members).find? q with
      | some first => [first]
      | none => memberFirsts own q members
  | .arr items => itemFirsts own q items
  | _ => []
def itemFirsts (own : Object → List Candidate) (q : Candidate → Bool) : List Json → List Candidate
  | [] => []
  | item :: rest =>
      match firsts own q item with
      | [] => itemFirsts own q rest
      | first :: more => first :: more
def memberFirsts (own : Object → List Candidate) (q : Candidate → Bool) : Object → List Candidate
  | [] => []
  | (_, value) :: rest => firsts own q value ++ memberFirsts own q rest
end

/-- An object's own candidates do not depend on the order of its members. -/
def Stable (own : Object → List Candidate) : Prop :=
  ∀ members members', Distinct (.obj members) → Reordered (.obj members) (.obj members') → own members' = own members

variable {own : Object → List Candidate} {q : Candidate → Bool} {members middle members' : Object}

theorem memberCandidates_eq (own : Object → List Candidate) (members : Object) :
    memberCandidates own members = members.flatMap fun member => candidates own member.2 := by
  induction members with
  | nil => rfl
  | cons member rest ih => rw [memberCandidates, ih, List.flatMap_cons]

theorem memberFirsts_eq (own : Object → List Candidate) (q : Candidate → Bool) (members : Object) :
    memberFirsts own q members = members.flatMap fun member => firsts own q member.2 := by
  induction members with
  | nil => rfl
  | cons member rest ih => rw [memberFirsts, ih, List.flatMap_cons]

mutual
theorem candidates_perm (stable : Stable own) : ∀ (json : Json) (other : Json), Distinct json → Reordered json other →
    (candidates own other).Perm (candidates own json)
  | .obj members, other, distinct, reordered => by
      obtain ⟨middle, members', rfl, inside, perm⟩ := reordered
      have same := stable members members' distinct ⟨middle, members', rfl, inside, perm⟩
      have moved : (memberCandidates own members').Perm (memberCandidates own middle) := by
        rw [memberCandidates_eq, memberCandidates_eq]
        exact perm.symm.flatMap_right _
      rw [candidates, candidates, same]
      exact (moved.trans (memberCandidates_perm stable members middle distinct.2 inside)).append_left _
  | .arr items, other, distinct, reordered => by
      obtain ⟨items', rfl, inside⟩ := reordered
      rw [candidates, candidates]
      exact itemCandidates_perm stable items items' distinct inside
  | .null, other, _, reordered | .bool _, other, _, reordered | .num _, other, _, reordered
  | .str _, other, _, reordered => by
      cases reordered
      exact .refl _
theorem itemCandidates_perm (stable : Stable own) : ∀ (items items' : List Json), DistinctItems items →
    ReorderedItems items items' → (itemCandidates own items').Perm (itemCandidates own items)
  | [], items', _, reordered => by
      cases reordered
      exact .refl _
  | item :: rest, items', distinct, reordered => by
      obtain ⟨item', rest', rfl, here, tail⟩ := reordered
      rw [itemCandidates, itemCandidates]
      exact (candidates_perm stable item item' distinct.1 here).append
        (itemCandidates_perm stable rest rest' distinct.2 tail)
theorem memberCandidates_perm (stable : Stable own) : ∀ (members middle : Object), DistinctMembers members →
    ReorderedMembers members middle → (memberCandidates own middle).Perm (memberCandidates own members)
  | [], middle, _, reordered => by
      cases reordered
      exact .refl _
  | (key, value) :: rest, middle, distinct, reordered => by
      obtain ⟨value', rest', rfl, here, tail⟩ := reordered
      rw [memberCandidates, memberCandidates]
      exact (candidates_perm stable value value' distinct.1 here).append
        (memberCandidates_perm stable rest rest' distinct.2 tail)
end

/-- Whatever the order, the first candidate met is one of those that can be, and one is met
if one can be. -/
structure MeetsFirst (found : Option Candidate) (possible : List Candidate) : Prop where
  among : ∀ first, found = some first → first ∈ possible
  never : found = none → possible = []

mutual
theorem meetsFirst (stable : Stable own) : ∀ (json other : Json), Distinct json → Reordered json other →
    MeetsFirst ((candidates own other).find? q) (firsts own q json)
  | .obj members, other, distinct, reordered => by
      obtain ⟨middle, members', rfl, inside, perm⟩ := reordered
      have same := stable members members' distinct ⟨middle, members', rfl, inside, perm⟩
      rw [candidates, firsts, same, List.find?_append]
      cases found : (own members).find? q with
      | some first =>
          rw [Option.some_or]
          exact ⟨fun _ here => by simpa using here.symm, fun nothing => nomatch nothing⟩
      | none =>
          rw [Option.none_or]
          obtain ⟨met, all_met⟩ := meetsFirst_members stable members middle distinct.2 inside
          rw [memberCandidates_eq, memberFirsts_eq, List.find?_flatMap]
          constructor
          · intro first here
            obtain ⟨member', among, here⟩ := List.exists_of_findSome?_eq_some here
            obtain ⟨member, within, meets⟩ := met member' (perm.mem_iff.mpr among)
            exact List.mem_flatMap.mpr ⟨member, within, meets.among first here⟩
          · intro nothing
            rw [List.findSome?_eq_none_iff] at nothing
            rw [List.flatMap_eq_nil_iff]
            intro member within
            obtain ⟨member', among, meets⟩ := all_met member within
            exact meets.never (nothing member' (perm.mem_iff.mp among))
  | .arr items, other, distinct, reordered => by
      obtain ⟨items', rfl, inside⟩ := reordered
      rw [candidates, firsts]
      exact meetsFirst_items stable items items' distinct inside
  | .null, other, _, reordered | .bool _, other, _, reordered | .num _, other, _, reordered
  | .str _, other, _, reordered => by
      cases reordered
      exact ⟨fun _ here => (nomatch here), fun _ => rfl⟩
theorem meetsFirst_items (stable : Stable own) : ∀ (items items' : List Json), DistinctItems items →
    ReorderedItems items items' → MeetsFirst ((itemCandidates own items').find? q) (itemFirsts own q items)
  | [], items', _, reordered => by
      cases reordered
      exact ⟨fun _ here => (nomatch here), fun _ => rfl⟩
  | item :: rest, items', distinct, reordered => by
      obtain ⟨item', rest', rfl, here, tail⟩ := reordered
      have first := meetsFirst stable item item' distinct.1 here
      have later := meetsFirst_items stable rest rest' distinct.2 tail
      rw [itemCandidates, itemFirsts, List.find?_append]
      cases found : (candidates own item').find? q with
      | some candidate =>
          have possible := first.1 candidate found
          rw [Option.some_or]
          cases all : firsts own q item with
          | nil =>
              rw [all] at possible
              cases possible
          | cons one more =>
              rw [all] at possible
              refine ⟨fun _ same => ?_, fun nothing => nomatch nothing⟩
              rw [Option.some.injEq] at same
              exact same ▸ possible
      | none =>
          rw [first.2 found, Option.none_or]
          exact later
-- Every member has its counterpart in another order.
theorem meetsFirst_members (stable : Stable own) : ∀ (members middle : Object), DistinctMembers members →
    ReorderedMembers members middle →
    (∀ member' ∈ middle, ∃ member ∈ members,
      MeetsFirst ((candidates own member'.2).find? q) (firsts own q member.2)) ∧
    ∀ member ∈ members, ∃ member' ∈ middle,
      MeetsFirst ((candidates own member'.2).find? q) (firsts own q member.2)
  | [], middle, _, reordered => by
      cases reordered
      exact ⟨fun _ none => (nomatch none), fun _ none => (nomatch none)⟩
  | (key, value) :: rest, middle, distinct, reordered => by
      obtain ⟨value', rest', rfl, here, tail⟩ := reordered
      have first := meetsFirst stable value value' distinct.1 here
      obtain ⟨met, all_met⟩ := meetsFirst_members stable rest rest' distinct.2 tail
      constructor
      · intro member' among
        rcases List.mem_cons.mp among with rfl | later
        · exact ⟨_, List.mem_cons_self, first⟩
        · obtain ⟨member, within, meets⟩ := met member' later
          exact ⟨member, List.mem_cons_of_mem _ within, meets⟩
      · intro member within
        rcases List.mem_cons.mp within with rfl | later
        · exact ⟨_, List.mem_cons_self, first⟩
        · obtain ⟨member', among, meets⟩ := all_met member later
          exact ⟨member', List.mem_cons_of_mem _ among, meets⟩
end

theorem find_none (stable : Stable own) {json : Json} (distinct : Distinct json) (nobody : firsts own q json = []) :
    (candidates own json).find? q = none := by
  have meets := meetsFirst (q := q) stable json json distinct (reordered_refl json)
  cases found : (candidates own json).find? q with
  | none => rfl
  | some candidate =>
      have among := meets.among candidate found
      rw [nobody] at among
      cases among

-- One value among the members reordered, the rest as they were.
theorem reorderedMembers_at {key : String} {value value' : Json} (here : Reordered value value')
    (before after : Object) :
    ReorderedMembers (before ++ (key, value) :: after) (before ++ (key, value') :: after) := by
  induction before with
  | nil => exact ⟨value', after, rfl, here, reorderedMembers_refl after⟩
  | cons member before ih => exact ⟨member.2, _, rfl, reordered_refl member.2, ih⟩

mutual
theorem firsts_met (stable : Stable own) : ∀ (json : Json), Distinct json → ∀ first ∈ firsts own q json,
    ∃ other, Reordered json other ∧ (candidates own other).find? q = some first
  | .obj members, distinct, first, possible => by
      rw [firsts] at possible
      cases found : (own members).find? q with
      | some candidate =>
          simp only [found, List.mem_singleton] at possible
          refine ⟨.obj members, reordered_refl _, ?_⟩
          rw [candidates, List.find?_append, found, possible, Option.some_or]
      | none =>
          simp only [found] at possible
          obtain ⟨before, key, value, value', after, rfl, here, met⟩ :=
            firsts_met_members stable members distinct.2 first possible
          -- The member with the candidate is walked through before the others.
          have reordered : Reordered (.obj (before ++ (key, value) :: after))
              (.obj ((key, value') :: (before ++ after))) :=
            ⟨before ++ (key, value') :: after, _, rfl, reorderedMembers_at here before after, List.perm_middle⟩
          refine ⟨_, reordered, ?_⟩
          rw [candidates, stable _ _ distinct reordered, memberCandidates, List.find?_append, found, Option.none_or,
            List.find?_append, met, Option.some_or]
  | .arr items, distinct, first, possible => by
      obtain ⟨items', reordered, met⟩ := firsts_met_items stable items distinct first possible
      exact ⟨.arr items', ⟨items', rfl, reordered⟩, met⟩
theorem firsts_met_items (stable : Stable own) : ∀ (items : List Json), DistinctItems items →
    ∀ first ∈ itemFirsts own q items, ∃ items', ReorderedItems items items' ∧
      (itemCandidates own items').find? q = some first
  | item :: rest, distinct, first, possible => by
      rw [itemFirsts] at possible
      cases all : firsts own q item with
      | nil =>
          simp only [all] at possible
          obtain ⟨rest', reordered, met⟩ := firsts_met_items stable rest distinct.2 first possible
          refine ⟨item :: rest', ⟨item, rest', rfl, reordered_refl item, reordered⟩, ?_⟩
          rw [itemCandidates, List.find?_append, find_none stable distinct.1 all, Option.none_or, met]
      | cons one more =>
          simp only [all] at possible
          rw [← all] at possible
          obtain ⟨item', reordered, met⟩ := firsts_met stable item distinct.1 first possible
          refine ⟨item' :: rest, ⟨item', rest, rfl, reordered, reorderedItems_refl rest⟩, ?_⟩
          rw [itemCandidates, List.find?_append, met, Option.some_or]
theorem firsts_met_members (stable : Stable own) : ∀ (members : Object), DistinctMembers members →
    ∀ first ∈ memberFirsts own q members, ∃ before key value value' after,
      members = before ++ (key, value) :: after ∧ Reordered value value' ∧
        (candidates own value').find? q = some first
  | (key, value) :: rest, distinct, first, possible => by
      rw [memberFirsts] at possible
      rcases List.mem_append.mp possible with here | later
      · obtain ⟨value', reordered, met⟩ := firsts_met stable value distinct.1 first here
        exact ⟨[], key, value, value', rest, rfl, reordered, met⟩
      · obtain ⟨before, key', value', other, after, rfl, reordered, met⟩ :=
          firsts_met_members stable rest distinct.2 first later
        exact ⟨(key, value) :: before, key', value', other, after, rfl, reordered, met⟩
end

/-- A reading of the first candidate met is the same in every order exactly when it is the
same for all that can be first. -/
theorem first_same_iff (stable : Stable own) {json : Json} (distinct : Distinct json) (read : Candidate → Value) :
    (∀ one other, Reordered json one → Reordered json other →
      ((candidates own one).find? q).map read = ((candidates own other).find? q).map read) ↔
    ∀ a ∈ firsts own q json, ∀ b ∈ firsts own q json, read a = read b := by
  constructor
  · intro same a among_a b among_b
    obtain ⟨one, reordered_one, met_one⟩ := firsts_met stable json distinct a among_a
    obtain ⟨other, reordered_other, met_other⟩ := firsts_met stable json distinct b among_b
    have equal := same one other reordered_one reordered_other
    rw [met_one, met_other] at equal
    exact Option.some.inj equal
  · intro agree one other reordered_one reordered_other
    have meets_one := meetsFirst (q := q) stable json one distinct reordered_one
    have meets_other := meetsFirst (q := q) stable json other distinct reordered_other
    cases found_one : (candidates own one).find? q with
    | none =>
        cases found_other : (candidates own other).find? q with
        | none => rfl
        | some b =>
            have among := meets_other.among b found_other
            rw [meets_one.never found_one] at among
            cases among
    | some a =>
        have among_a := meets_one.among a found_one
        cases found_other : (candidates own other).find? q with
        | none =>
            rw [meets_other.never found_other] at among_a
            cases among_a
        | some b => exact congrArg some (agree a among_a b (meets_other.among b found_other))

-- Those that can be first are met, and have the property.
theorem firsts_sound (stable : Stable own) {json : Json} (distinct : Distinct json) {first : Candidate}
    (possible : first ∈ firsts own q json) : first ∈ candidates own json ∧ q first = true := by
  obtain ⟨other, reordered, met⟩ := firsts_met stable json distinct first possible
  have member := List.mem_of_find?_eq_some met
  exact ⟨(candidates_perm stable json other distinct reordered).mem_iff.mp member, List.find?_some met⟩

end Walks

section FirstWins
variable {settled : Value → Bool} {value : Candidate → Value} {blank : Value}

def takeFirst (settled : Value → Bool) (value : Candidate → Value) (current : Value) (candidate : Candidate) : Value :=
  if settled current then current else value candidate

theorem foldl_settled {start : Value} (done : settled start = true) (list : List Candidate) :
    list.foldl (takeFirst settled value) start = start := by
  induction list with
  | nil => rfl
  | cons candidate rest ih => rw [List.foldl_cons, takeFirst, if_pos done, ih]

theorem foldl_takeFirst (unsettled : ∀ candidate, settled (value candidate) = false → value candidate = blank)
    {start : Value} (opened : settled start = false) (list : List Candidate) :
    list.foldl (takeFirst settled value) start =
      match (list.find? fun candidate => settled (value candidate)).map value with
      | some final => final
      | none => if list = [] then start else blank := by
  induction list generalizing start with
  | nil => rfl
  | cons candidate rest ih =>
      rw [List.foldl_cons, takeFirst, opened, List.find?_cons]
      cases done : settled (value candidate) with
      | true => exact foldl_settled done rest
      | false =>
          refine (ih done).trans ?_
          have is_blank := unsettled candidate done
          cases rest.find? fun candidate => settled (value candidate) with
          | none => simp [is_blank]
          | some final => rfl

/-- Where the first settling candidate wins, the result is the same in every order exactly
when the slot is settled before, or all that can be first have one value. -/
theorem takeFirst_same_iff {own : Object → List Candidate} (stable : Stable own) {json : Json} (distinct : Distinct json)
    (unsettled : ∀ candidate, settled (value candidate) = false → value candidate = blank) (start : Value) :
    (∀ one other, Reordered json one → Reordered json other →
      (candidates own one).foldl (takeFirst settled value) start =
        (candidates own other).foldl (takeFirst settled value) start) ↔
    settled start = true ∨ ∀ a ∈ firsts own (fun candidate => settled (value candidate)) json,
      ∀ b ∈ firsts own (fun candidate => settled (value candidate)) json, value a = value b := by
  cases opened : settled start with
  | true =>
      refine ⟨fun _ => .inl rfl, fun _ one other _ _ => ?_⟩
      rw [foldl_settled opened, foldl_settled opened]
  | false =>
      simp only [foldl_takeFirst unsettled opened, Bool.false_eq_true, false_or]
      constructor
      · intro same a among_a b among_b
        obtain ⟨one, reordered_one, met_one⟩ := firsts_met stable json distinct a among_a
        obtain ⟨other, reordered_other, met_other⟩ := firsts_met stable json distinct b among_b
        have equal := same one other reordered_one reordered_other
        rwa [met_one, met_other] at equal
      · intro agree one other reordered_one reordered_other
        rw [(first_same_iff stable distinct value).mpr agree one other reordered_one reordered_other]
        have empty : candidates own one = [] ↔ candidates own other = [] := by
          have perm := (candidates_perm stable json one distinct reordered_one).trans
            (candidates_perm stable json other distinct reordered_other).symm
          rw [← List.length_eq_zero_iff, ← List.length_eq_zero_iff, perm.length_eq]
        simp only [empty]

end FirstWins

section BestWins
variable {State : Type} (level : State → Int) (score : Candidate → Int) (made : Candidate → State)

/-- A candidate that scores higher than the state takes its place. -/
def improve (current : State) (candidate : Candidate) : State :=
  if level current < score candidate then made candidate else current

/-- The highest score among the candidates, or the state's own level. -/
def topScore (start : State) (list : List Candidate) : Int := list.foldl (fun top c => max top (score c)) (level start)

def reaches (top : Int) (candidate : Candidate) : Bool := decide (top ≤ level (made candidate) ∨ score candidate = top)

variable {level score made} {start : State} {top : Int} {list : List Candidate}

theorem le_foldl_max (bound : Int) (list : List Candidate) :
    bound ≤ list.foldl (fun top c => max top (score c)) bound ∧
      (∀ c ∈ list, score c ≤ list.foldl (fun top c => max top (score c)) bound) ∧
      (list.foldl (fun top c => max top (score c)) bound = bound ∨
        ∃ c ∈ list, score c = list.foldl (fun top c => max top (score c)) bound) := by
  induction list generalizing bound with
  | nil => exact ⟨le_refl _, by simp, .inl rfl⟩
  | cons candidate rest ih =>
      obtain ⟨above, all, reached⟩ := ih (max bound (score candidate))
      rw [List.foldl_cons]
      refine ⟨(le_max_left _ _).trans above, ?_, ?_⟩
      · intro c member
        rcases List.mem_cons.mp member with rfl | later
        · exact (le_max_right _ _).trans above
        · exact all c later
      · rcases reached with same | ⟨c, member, same⟩
        · rw [same]
          rcases max_choice bound (score candidate) with is_bound | is_score
          · exact .inl is_bound
          · exact .inr ⟨candidate, List.mem_cons_self, is_score.symm⟩
        · exact .inr ⟨c, List.mem_cons_of_mem _ member, same⟩

theorem foldl_unbeaten (unbeaten : ∀ c ∈ list, score c ≤ level start) : list.foldl (improve level score made) start = start := by
  induction list with
  | nil => rfl
  | cons candidate rest ih =>
      have here := unbeaten candidate List.mem_cons_self
      rw [List.foldl_cons, improve, if_neg (by omega)]
      exact ih fun c member => unbeaten c (List.mem_cons_of_mem _ member)

/-- The first candidate that reaches the top is taken and stays, if it has the top score
and keeps its level. -/
theorem foldl_improve (below : level start < top) (bounded : ∀ c ∈ list, score c ≤ top) {first : Candidate}
    (found : list.find? (reaches level score made top) = some first) (scores : score first = top)
    (stays : top ≤ level (made first)) : list.foldl (improve level score made) start = made first := by
  induction list generalizing start with
  | nil => cases found
  | cons candidate rest ih =>
      rw [List.find?_cons] at found
      have bounded_rest : ∀ c ∈ rest, score c ≤ top := fun c member => bounded c (List.mem_cons_of_mem _ member)
      rw [List.foldl_cons, improve]
      by_cases reached : reaches level score made top candidate = true
      · simp only [reached, Option.some.injEq] at found
        subst found
        rw [if_pos (by omega)]
        exact foldl_unbeaten fun c member => (bounded_rest c member).trans stays
      · simp only [Bool.eq_false_of_not_eq_true reached] at found
        have not_reached : level (made candidate) < top := by
          by_contra high
          exact reached (by simp [reaches, Int.not_lt.mp high])
        split
        · exact ih not_reached bounded_rest found
        · exact ih below bounded_rest found

/-- Where the best candidate wins: the result is the same in every order exactly when all
that can be the first to reach the top make one result. -/
theorem improve_same_iff {own : Object → List Candidate} (stable : Stable own) {json : Json} (distinct : Distinct json)
    (read : State → Value) (start : State)
    (clean : (∃ c ∈ candidates own json, level start < score c) →
      ∀ a ∈ firsts own (reaches level score made (topScore level score start (candidates own json))) json,
        score a = topScore level score start (candidates own json) ∧
          topScore level score start (candidates own json) ≤ level (made a)) :
    (∀ one other, Reordered json one → Reordered json other →
      read ((candidates own one).foldl (improve level score made) start) =
        read ((candidates own other).foldl (improve level score made) start)) ↔
    (∀ c ∈ candidates own json, score c ≤ level start) ∨
      ∀ a ∈ firsts own (reaches level score made (topScore level score start (candidates own json))) json,
        ∀ b ∈ firsts own (reaches level score made (topScore level score start (candidates own json))) json,
          read (made a) = read (made b) := by
  generalize is_top : topScore level score start (candidates own json) = top at clean ⊢
  obtain ⟨above, bounded, reached⟩ := @le_foldl_max _ score (level start) (candidates own json)
  rw [topScore] at is_top
  rw [is_top] at above bounded reached
  have same_members {other : Json} (reordered : Reordered json other) (c : Candidate) :
      c ∈ candidates own other ↔ c ∈ candidates own json :=
    (candidates_perm stable json other distinct reordered).mem_iff
  by_cases unbeaten : ∀ c ∈ candidates own json, score c ≤ level start
  · refine ⟨fun _ => .inl unbeaten, fun _ one other reordered_one reordered_other => ?_⟩
    rw [foldl_unbeaten fun c member => unbeaten c ((same_members reordered_one c).mp member),
      foldl_unbeaten fun c member => unbeaten c ((same_members reordered_other c).mp member)]
  · have beaten : ∃ c ∈ candidates own json, level start < score c := by
      push Not at unbeaten
      exact unbeaten
    have clean := clean beaten
    have below : level start < top := by
      obtain ⟨c, member, beats⟩ := beaten
      have bound := bounded c member
      omega
    -- In every order somebody reaches the top, and the first one to do so is the result.
    have final {other : Json} (reordered : Reordered json other) : ∃ first,
        (candidates own other).find? (reaches level score made top) = some first ∧
          (candidates own other).foldl (improve level score made) start = made first := by
      obtain ⟨best, member, scores⟩ : ∃ c ∈ candidates own json, score c = top := by
        rcases reached with level_is | best
        · omega
        · exact best
      have meets := meetsFirst (q := reaches level score made top) stable json other distinct reordered
      cases found : (candidates own other).find? (reaches level score made top) with
      | none =>
          have nobody := List.find?_eq_none.mp found best ((same_members reordered best).mpr member)
          exact absurd (by simp [reaches, scores]) nobody
      | some first =>
          obtain ⟨scores, stays⟩ := clean first (meets.among first found)
          refine ⟨first, rfl, foldl_improve below ?_ found scores stays⟩
          exact fun c among => bounded c ((same_members reordered c).mp among)
    simp only [unbeaten, false_or]
    rw [← first_same_iff stable distinct fun c => read (made c)]
    constructor
    · intro same one other reordered_one reordered_other
      obtain ⟨a, found_a, result_a⟩ := final reordered_one
      obtain ⟨b, found_b, result_b⟩ := final reordered_other
      have equal := same one other reordered_one reordered_other
      rw [result_a, result_b] at equal
      rw [found_a, found_b, Option.map_some, Option.map_some, equal]
    · intro same one other reordered_one reordered_other
      obtain ⟨a, found_a, result_a⟩ := final reordered_one
      obtain ⟨b, found_b, result_b⟩ := final reordered_other
      have equal := same one other reordered_one reordered_other
      rw [found_a, found_b, Option.map_some, Option.map_some, Option.some.injEq] at equal
      rw [result_a, result_b, equal]

-- Where what is taken keeps its score, nothing else is needed.
theorem clean_of_kept {own : Object → List Candidate} (stable : Stable own) {json : Json} (distinct : Distinct json)
    (start : State) (kept : ∀ c ∈ candidates own json, level (made c) = score c) :
    ∀ a ∈ firsts own (reaches level score made (topScore level score start (candidates own json))) json,
      score a = topScore level score start (candidates own json) ∧
        topScore level score start (candidates own json) ≤ level (made a) := by
  intro a possible
  obtain ⟨member, reached⟩ := firsts_sound stable distinct possible
  have bounded := (@le_foldl_max _ score (level start) (candidates own json)).2.1 a member
  have keeps := kept a member
  simp only [reaches, decide_eq_true_eq] at reached
  unfold topScore at reached ⊢
  omega

end BestWins

end GoText
