import Payknot.RateLimit
import Mathlib.Data.List.Perm.Basic
import Mathlib.Data.List.Nodup
import Mathlib.Data.List.Range

/-! What the rate limiter lets through. A counter is dropped a minute after its first
request at the earliest, when its minute is over; until then the replies to its
increments number the requests of the minute, one after another. -/
namespace Payknot.RateLimit
open GoText Interleaving Machine

variable {cfg after : Limiter} {label : LimiterLabel} {tag ip : String} {bucket : Nat} {w : World}

def arrival (log : Log Reply) : Option Instant :=
  log.findSome? fun
    | ⟨.now, time⟩ => some time
    | _ => none

def place (log : Log Reply) : Option Nat :=
  log.findSome? fun
    | ⟨.incr _, reply⟩ => reply
    | _ => none

/-- The place of a request of this tag and client among those of the minute. -/
def placeIn (tag ip : String) (bucket : Nat) (thread : LimiterThread) : Option Nat :=
  if thread.request.tag = tag ∧ thread.request.ip = ip ∧
      (arrival thread.log).map windowBucket = some bucket then place thread.log
  else none

def countedIn (tag ip : String) (bucket : Nat) (cfg : Limiter) : List LimiterThread :=
  cfg.threads.filter fun thread => (placeIn tag ip bucket thread).isSome

def forwarded (thread : LimiterThread) : Bool :=
  match thread.program with
  | .ret .forwarded => true
  | _ => false

/-- The forwarded requests of this tag and client, by when they came. -/
def forwardedWhen (tag ip : String) (came : Instant → Bool) (cfg : Limiter) : List LimiterThread :=
  cfg.threads.filter fun thread => forwarded thread && (thread.request.tag = tag &&
    (thread.request.ip = ip && (arrival thread.log).any came))

def WillForward (thread : LimiterThread) : Prop :=
  thread.program.Along (fun _ _ => True) (fun _ answer => answer = .forwarded) thread.log

/-- An increment succeeds, and at the instant of the request's clock reading. -/
def prompt (cfg : Limiter) : LimiterLabel → Bool
  | .step index refused =>
      match cfg.threads[index]? with
      | some ⟨_, log, .call (.incr _) _⟩ => !refused && arrival log = some cfg.world.now
      | _ => true
  | _ => true

def Prompt (cfg : Limiter) (label : LimiterLabel) : Prop := prompt cfg label = true

structure Fresh (cfg : Limiter) : Prop where
  counters : cfg.world.counters = []
  threads : cfg.threads = []

section Commands
variable {refused : Bool} {op : Op} {reply : Reply op} {w' : World}

theorem exec_now (executed : exec refused op w = some (reply, w')) : w'.now = w.now := by
  cases op with
  | now =>
      cases executed
      rfl
  | incr key | expire key =>
      simp only [exec] at executed
      split at executed
      · cases executed
        rfl
      · split at executed <;> cases executed <;> rfl

-- A command touches the counter it names and no other.
theorem exec_other {key : String} (executed : exec refused op w = some (reply, w'))
    (elsewhere : ∀ named, (op = .incr named ∨ ∃ ttl, op = .expire named ttl) → named ≠ key)
    (counter : Counter) (named : counter.key = key) :
    counter ∈ w'.counters ↔ counter ∈ w.counters := by
  have stored (new : Counter) (apart : new.key ≠ key) :
      counter ∈ (w.store new).counters ↔ counter ∈ w.counters := by
    have other : counter ≠ new := by
      rintro rfl
      exact apart named
    have unnamed : counter.key ≠ new.key := by
      rw [named]
      exact apart.symm
    simp [World.store, other, unnamed]
  have found {name : String} {old : Counter} (finds : w.find name = some old) : old.key = name := by
    have meets := List.find?_some finds
    simp only [Bool.and_eq_true, decide_eq_true_eq] at meets
    exact meets.1
  cases op with
  | now =>
      cases executed
      exact Iff.rfl
  | incr name =>
      have apart := elsewhere name (.inl rfl)
      simp only [exec] at executed
      split at executed
      · cases executed
        exact Iff.rfl
      · split at executed
        · cases executed
          exact stored _ apart
        · next old finds =>
          cases executed
          exact stored _ ((found finds).symm ▸ apart)
  | expire name ttl =>
      have apart := elsewhere name (.inr ⟨ttl, rfl⟩)
      simp only [exec] at executed
      split at executed
      · cases executed
        exact Iff.rfl
      · split at executed
        · cases executed
          exact Iff.rfl
        · next old finds =>
          cases executed
          exact stored _ ((found finds).symm ▸ apart)

end Commands

section Keys

theorem toDigits_injective {m n : Nat} (same : Nat.toDigits 10 m = Nat.toDigits 10 n) : m = n := by
  have value := congrArg (fun digits => Nat.ofDigitChars 10 digits 0) same
  simpa only [Nat.ofDigitChars_ten_toDigits] using value

theorem no_colon_digits (n : Nat) : ':' ∉ Nat.toDigits 10 n := by
  intro among
  have digit := Nat.isDigit_of_mem_toDigits (by omega) (by omega) among
  exact absurd digit (by decide)

theorem no_colon_tag (r : Request) : ':' ∉ r.tag.toList := by
  unfold Request.tag rateLimitPolicy
  split
  · decide
  · split
    · decide
    · split <;> decide

theorem separated {sep : Char} {left left' right right' : List Char} (absent : sep ∉ left)
    (absent' : sep ∉ left') (same : left ++ sep :: right = left' ++ sep :: right') :
    left = left' ∧ right = right' := by
  induction left generalizing left' with
  | nil =>
      cases left' with
      | nil => exact ⟨rfl, (List.cons.inj same).2⟩
      | cons c rest => exact absurd (List.cons.inj same).1 (by simpa using fun eq => absent' (by simp [eq]))
  | cons c rest ih =>
      cases left' with
      | nil => exact absurd (List.cons.inj same).1 (by simpa using fun eq => absent (by simp [eq]))
      | cons c' rest' =>
          obtain ⟨heads, tails⟩ := List.cons.inj same
          obtain ⟨lefts, rights⟩ := ih (fun among => absent (List.mem_cons_of_mem _ among))
            (fun among => absent' (List.mem_cons_of_mem _ among)) tails
          exact ⟨congrArg₂ List.cons heads lefts, rights⟩

/-- Counters are kept apart: a colon ends the tag, and the last one starts the minute. -/
theorem counterKey_injective {tag' ip' : String} {bucket' : Nat} (plain : ':' ∉ tag.toList)
    (plain' : ':' ∉ tag'.toList) (same : counterKey tag ip bucket = counterKey tag' ip' bucket') :
    tag = tag' ∧ ip = ip' ∧ bucket = bucket' := by
  have runes := congrArg String.toList same
  simp only [counterKey, String.toList_append, String.toList_ofList, List.append_assoc] at runes
  have rest := List.append_cancel_left runes
  have colon : (":" : String).toList = [':'] := rfl
  simp only [colon, List.singleton_append] at rest
  obtain ⟨tags, rest⟩ := separated plain plain' rest
  have reversed := congrArg List.reverse rest
  simp only [List.reverse_append, List.reverse_cons, List.append_assoc, List.singleton_append] at reversed
  have no_colon (n : Nat) : ':' ∉ (Nat.toDigits 10 n).reverse := by
    rw [List.mem_reverse]
    exact no_colon_digits n
  obtain ⟨digits, ips⟩ := separated (no_colon bucket) (no_colon bucket') reversed
  exact ⟨String.toList_inj.mp tags, String.toList_inj.mp (List.reverse_inj.mp ips),
    toDigits_injective (List.reverse_inj.mp digits)⟩

end Keys

section Lists
variable {α β : Type}

theorem filterMap_set_same {f : α → Option β} {items : List α} {index : Nat} {old new : α}
    (found : items[index]? = some old) (same : f new = f old) :
    (items.set index new).filterMap f = items.filterMap f := by
  induction items generalizing index with
  | nil => rfl
  | cons first rest ih =>
      cases index with
      | zero =>
          cases found
          simp only [List.set_cons_zero, List.filterMap_cons, same]
      | succ index =>
          rw [List.getElem?_cons_succ] at found
          simp only [List.set_cons_succ, List.filterMap_cons, ih found]

theorem filterMap_set_new {f : α → Option β} {items : List α} {index : Nat} {old new : α} {value : β}
    (found : items[index]? = some old) (before : f old = none) (now : f new = some value) :
    ((items.set index new).filterMap f).Perm (value :: items.filterMap f) := by
  induction items generalizing index with
  | nil => simp at found
  | cons first rest ih =>
      cases index with
      | zero =>
          cases found
          simp only [List.set_cons_zero, List.filterMap_cons, before, now]
          exact .refl _
      | succ index =>
          rw [List.getElem?_cons_succ] at found
          simp only [List.set_cons_succ, List.filterMap_cons]
          split
          · exact ih found
          · exact ((ih found).cons _).trans (.swap ..)

theorem length_filter_split (p left right : α → Bool) (items : List α)
    (covered : ∀ item ∈ items, p item = true → left item = true ∨ right item = true) :
    (items.filter p).length ≤ (items.filter left).length + (items.filter right).length := by
  induction items with
  | nil => simp
  | cons item rest ih =>
      have tail := ih fun other member => covered other (List.mem_cons_of_mem _ member)
      have head := covered item List.mem_cons_self
      simp only [List.filter_cons]
      by_cases chosen : p item = true
      · rcases head chosen with first | second
        · simp only [chosen, first, if_true, List.length_cons]
          split
          · simp only [List.length_cons]
            omega
          · omega
        · simp only [chosen, second, if_true, List.length_cons]
          split
          · simp only [List.length_cons]
            omega
          · omega
      · rw [if_neg chosen]
        split
        · split
          · simp only [List.length_cons]
            omega
          · simp only [List.length_cons]
            omega
        · split
          · simp only [List.length_cons]
            omega
          · exact tail

end Lists

section History

def verdict (r : Request) (log : Log Reply) : Answer :=
  match place log with
  | none => .unavailable
  | some count => if count > r.limit then .tooMany else .forwarded

def Issues (r : Request) (log : Log Reply) : Op → Prop
  | .now => log = []
  | .incr key => ∃ time, log = [⟨.now, time⟩] ∧ key = counterKey r.tag r.ip (windowBucket time)
  | .expire key ttl => ttl = windowSize ∧ ∃ time : Instant, log = [⟨.incr key, some 1⟩, ⟨.now, time⟩] ∧
      key = counterKey r.tag r.ip (windowBucket time)

def Ends (r : Request) (log : Log Reply) (answer : Answer) : Prop :=
  answer = verdict r log ∧ ∃ time, arrival log = some time

theorem limit_positive (r : Request) : 1 ≤ r.limit := by
  unfold Request.limit rateLimitPolicy
  split
  · decide
  · split
    · decide
    · split <;> decide

theorem along_rateLimit (r : Request) : (rateLimit r).Along (Issues r) (Ends r) [] := by
  unfold rateLimit
  rw [Program.along_perform_bind]
  refine ⟨rfl, fun time => ?_⟩
  rw [Program.along_perform_bind]
  refine ⟨⟨time, rfl, rfl⟩, fun reply => ?_⟩
  cases reply with
  | none =>
      rw [Program.along_pure]
      exact ⟨rfl, time, rfl⟩
  | some count =>
      have positive := limit_positive r
      simp only
      split
      · next first =>
        subst first
        rw [Program.along_perform_bind]
        refine ⟨⟨rfl, time, rfl, rfl⟩, fun given => ?_⟩
        rw [if_neg (by omega), Program.along_pure]
        exact ⟨by simp [verdict, place, show ¬ 1 > r.limit by omega], time, rfl⟩
      · split
        · next many =>
          rw [Program.along_pure]
          exact ⟨by simp [verdict, place, many], time, rfl⟩
        · next few =>
          rw [Program.along_pure]
          exact ⟨by simp [verdict, place, few], time, rfl⟩

theorem now_next (stepped : machine.next cfg label = some after) : cfg.world.now ≤ after.world.now := by
  rcases next_cases stepped with ⟨_, _, rfl⟩ | ⟨elapsed, world, _, occurred, rfl⟩ |
    ⟨_, refused, _, op, _, _, world, _, _, _, executed, rfl⟩
  · exact Nat.le_refl _
  · cases occurred
    exact Nat.le_add_right _ _
  · exact (exec_now executed).symm.le

theorem prompt_incr {index : Nat} {refused : Bool} {thread : LimiterThread} {key : String}
    {rest : Option Nat → Program Reply Answer} (at_once : Prompt cfg (.step index refused))
    (at_index : cfg.threads[index]? = some thread) (program : thread.program = .call (.incr key) rest) :
    refused = false ∧ arrival thread.log = some cfg.world.now := by
  obtain ⟨request, log, _⟩ := thread
  cases program
  simpa [Prompt, prompt, at_index] using at_once

theorem ordered {first last : Limiter} (start : Fresh first) {allowed : Limiter → LimiterLabel → Prop}
    (run : machine.Reaches allowed first last) : Disciplined Issues Ends last := by
  refine run.disciplined along_rateLimit fun thread member => ?_
  rw [start.threads] at member
  cases member

-- Every clock reading of a request is in the past.
theorem arrived {first last : Limiter} (start : Fresh first) {allowed : Limiter → LimiterLabel → Prop}
    (run : machine.Reaches allowed first last) :
    Seen (fun entry => ∀ time : Instant, entry = ⟨.now, time⟩ → time ≤ last.world.now) last := by
  refine run.invariant (fun cfg => Seen (fun entry => ∀ time : Instant, entry = ⟨.now, time⟩ →
    time ≤ cfg.world.now) cfg) ?_ ?_
  · intro thread member
    rw [start.threads] at member
    cases member
  · intro cfg label after seen _ stepped
    have later : cfg.world.now ≤ after.world.now := now_next stepped
    refine seen_next seen stepped (fun entry past time same => (past time same).trans later) ?_
    rintro thread _ refused op reply _ executed time same
    cases same
    have read := (Prod.mk.inj (Option.some.inj executed)).1
    exact read ▸ later

end History

section Counting

def Numbered (tag ip : String) (bucket : Nat) (cfg : Limiter) : Prop :=
  (cfg.threads.filterMap (placeIn tag ip bucket)).Perm
    (List.range' 1 (countedIn tag ip bucket cfg).length)

/-- Until its minute is over, the counter has the number of the requests it counted,
and it will not be dropped before. -/
structure Tallied (tag ip : String) (bucket : Nat) (cfg : Limiter) : Prop where
  tally : ∀ counter ∈ cfg.world.counters, counter.key = counterKey tag ip bucket →
    counter.count = (countedIn tag ip bucket cfg).length ∧
      ∀ deadline, counter.deadline = some deadline → (bucket + 1) * windowSize ≤ deadline
  stored : countedIn tag ip bucket cfg ≠ [] →
    ∃ counter ∈ cfg.world.counters, counter.key = counterKey tag ip bucket

theorem counted_length (cfg : Limiter) :
    (countedIn tag ip bucket cfg).length = (cfg.threads.filterMap (placeIn tag ip bucket)).length := by
  rw [countedIn, List.length_filterMap_eq_countP, List.countP_eq_length_filter]

-- A step that gives nobody a place in the minute.
theorem numbered_same (numbered : Numbered tag ip bucket cfg)
    (same : after.threads.filterMap (placeIn tag ip bucket) = cfg.threads.filterMap (placeIn tag ip bucket)) :
    Numbered tag ip bucket after := by
  unfold Numbered at numbered ⊢
  rw [counted_length] at numbered ⊢
  rw [same]
  exact numbered

theorem tallied_same (tallied : Tallied tag ip bucket cfg)
    (same : after.threads.filterMap (placeIn tag ip bucket) = cfg.threads.filterMap (placeIn tag ip bucket))
    (counters : ∀ counter : Counter, counter.key = counterKey tag ip bucket →
      (counter ∈ after.world.counters ↔ counter ∈ cfg.world.counters)) : Tallied tag ip bucket after := by
  have length : (countedIn tag ip bucket after).length = (countedIn tag ip bucket cfg).length := by
    rw [counted_length, counted_length, same]
  constructor
  · intro counter member named
    rw [length]
    exact tallied.tally counter ((counters counter named).mp member) named
  · intro some_counted
    have before : countedIn tag ip bucket cfg ≠ [] := by
      rw [← List.length_pos_iff] at some_counted ⊢
      omega
    obtain ⟨counter, member, named⟩ := tallied.stored before
    exact ⟨counter, (counters counter named).mpr member, named⟩

-- While the minute lasts its counter is not dropped, so a command finds it.
theorem Tallied.found (tallied : Tallied tag ip bucket cfg) (current : windowBucket cfg.world.now ≤ bucket) :
    match cfg.world.find (counterKey tag ip bucket) with
    | none => (countedIn tag ip bucket cfg).length = 0
    | some counter => counter.key = counterKey tag ip bucket ∧ counter ∈ cfg.world.counters := by
  split
  · next absent =>
    by_contra some_counted
    obtain ⟨counter, member, named⟩ :=
      tallied.stored (List.length_pos_iff.mp (Nat.pos_of_ne_zero some_counted))
    have gone := List.find?_eq_none.mp absent counter member
    apply gone
    simp only [Bool.and_eq_true, decide_eq_true_eq]
    refine ⟨named, ?_⟩
    unfold Counter.live
    cases given : counter.deadline with
    | none => rfl
    | some deadline =>
        have late := (tallied.tally counter member named).2 deadline given
        rw [Option.all_some, decide_eq_true_eq]
        refine Nat.lt_of_lt_of_le ?_ late
        simp only [windowBucket, windowSize, secondLength] at current ⊢
        omega
  · next counter finds =>
    have meets := List.find?_some finds
    simp only [Bool.and_eq_true, decide_eq_true_eq] at meets
    exact ⟨meets.1, List.mem_of_find?_eq_some finds⟩

-- What the counter has after a request of the minute was counted.
theorem tallied_counted {count : Nat} {reply : Option Nat} {w' : World}
    (tallied : Tallied tag ip bucket cfg) (current : windowBucket cfg.world.now ≤ bucket)
    (counts : count = (countedIn tag ip bucket cfg).length)
    (executed : exec false (.incr (counterKey tag ip bucket)) cfg.world = some (reply, w')) :
    reply = some (count + 1) ∧
      (∀ counter ∈ w'.counters, counter.key = counterKey tag ip bucket → counter.count = count + 1 ∧
        ∀ deadline, counter.deadline = some deadline → (bucket + 1) * windowSize ≤ deadline) ∧
      ∃ counter ∈ w'.counters, counter.key = counterKey tag ip bucket := by
  have found := tallied.found current
  -- Storing the counter leaves it alone under its key.
  have stored (new : Counter) (named : new.key = counterKey tag ip bucket) :
      ∀ counter ∈ (cfg.world.store new).counters, counter.key = counterKey tag ip bucket → counter = new := by
    intro counter member same
    rcases List.mem_cons.mp member with here | old
    · exact here
    · have other := (List.mem_filter.mp old).2
      rw [named, same] at other
      simp at other
  simp only [exec, Bool.false_eq_true, if_false] at executed
  split at executed
  · next absent =>
    rw [absent] at found
    cases executed
    refine ⟨by rw [counts, found], ?_, _, List.mem_cons_self, rfl⟩
    intro counter member named
    rw [stored _ rfl counter member named]
    refine ⟨by rw [counts, found], ?_⟩
    rintro _ ⟨⟩
  · next old finds =>
    rw [finds] at found
    obtain ⟨named, member⟩ := found
    obtain ⟨tally, late⟩ := tallied.tally old member named
    cases executed
    refine ⟨by rw [counts, tally], ?_, _, List.mem_cons_self, named⟩
    intro counter among same
    rw [stored { old with count := old.count + 1 } named counter among same]
    exact ⟨by rw [counts, tally], late⟩

-- A minute for a counter of a past instant ends after the minute it counts.
theorem exec_expire {refused : Bool} {reply : Option Unit} {w' : World} {time : Instant}
    (past : time ≤ w.now)
    (executed : exec refused (.expire (counterKey tag ip (windowBucket time)) windowSize) w = some (reply, w')) :
    w' = w ∨ ∃ old ∈ w.counters, old.key = counterKey tag ip (windowBucket time) ∧ ∃ deadline,
      (windowBucket time + 1) * windowSize ≤ deadline ∧ w' = w.store { old with deadline := some deadline } := by
  simp only [exec] at executed
  split at executed
  · cases executed
    exact .inl rfl
  · split at executed
    · cases executed
      exact .inl rfl
    · next old finds =>
      cases executed
      have meets := List.find?_some finds
      simp only [Bool.and_eq_true, decide_eq_true_eq] at meets
      refine .inr ⟨old, List.mem_of_find?_eq_some finds, meets.1, w.now + windowSize, ?_, rfl⟩
      have start : windowBucket time * windowSize ≤ time := by
        simp only [windowBucket, windowSize, secondLength]
        omega
      rw [Nat.succ_mul]
      exact Nat.add_le_add_right (start.trans past) _

structure Counting (tag ip : String) (bucket : Nat) (cfg : Limiter) : Prop where
  numbered : Numbered tag ip bucket cfg
  tallied : windowBucket cfg.world.now ≤ bucket → Tallied tag ip bucket cfg

theorem windowBucket_mono {earlier later : Instant} (past : earlier ≤ later) :
    windowBucket earlier ≤ windowBucket later :=
  Nat.div_le_div_right (Nat.div_le_div_right past)

/-- One step: only an increment of the minute's own key counts, and only the giving of
its own minute to live touches the counter otherwise. -/
theorem counting_next (plain : ':' ∉ tag.toList) (counting : Counting tag ip bucket cfg)
    (ordered : Disciplined Issues Ends cfg)
    (arrived : Seen (fun entry => ∀ time : Instant, entry = ⟨.now, time⟩ → time ≤ cfg.world.now) cfg)
    (prompt : Prompt cfg label) (stepped : machine.next cfg label = some after) :
    Counting tag ip bucket after := by
  have later := now_next stepped
  have earlier (current : windowBucket after.world.now ≤ bucket) : windowBucket cfg.world.now ≤ bucket :=
    (windowBucket_mono later).trans current
  -- Nobody gets a place, and the counter stays as it is.
  have unchanged (same : after.threads.filterMap (placeIn tag ip bucket) =
        cfg.threads.filterMap (placeIn tag ip bucket))
      (counters : ∀ counter : Counter, counter.key = counterKey tag ip bucket →
        (counter ∈ after.world.counters ↔ counter ∈ cfg.world.counters)) :
      Counting tag ip bucket after :=
    ⟨numbered_same counting.numbered same,
      fun current => tallied_same (counting.tallied (earlier current)) same counters⟩
  rcases next_cases stepped with ⟨request, rfl, rfl⟩ | ⟨elapsed, world, rfl, occurred, rfl⟩ |
    ⟨index, refused, thread, op, rest, reply, world, rfl, at_index, program, executed, rfl⟩
  · apply unchanged
    · rw [List.filterMap_append]
      simp [placeIn, arrival]
    · exact fun _ _ => Iff.rfl
  · cases occurred
    exact unchanged rfl fun _ _ => Iff.rfl
  · have member := List.mem_of_getElem? at_index
    have issues := ordered.issues member ⟨rest, program⟩
    cases op with
    | now =>
        cases executed
        apply unchanged
        · apply filterMap_set_same at_index
          have empty : thread.log = [] := issues
          simp [placeIn, Thread.resumed, empty, arrival, place]
        · exact fun _ _ => Iff.rfl
    | incr key =>
        obtain ⟨time, log, named⟩ := issues
        obtain ⟨rfl, at_once⟩ := prompt_incr prompt at_index program
        have now : time = cfg.world.now := by
          rw [log] at at_once
          simpa [arrival] using at_once
        have before : placeIn tag ip bucket thread = none := by
          simp [placeIn, log, place]
        by_cases counted : thread.request.tag = tag ∧ thread.request.ip = ip ∧ windowBucket time = bucket
        · obtain ⟨same_tag, same_ip, same_bucket⟩ := counted
          rw [same_tag, same_ip, same_bucket] at named
          subst named
          have current : windowBucket cfg.world.now ≤ bucket := by
            rw [← now, same_bucket]
          obtain ⟨answered, tally, stored⟩ := tallied_counted (counting.tallied current) current rfl executed
          have placed : placeIn tag ip bucket (thread.resumed _ reply rest) =
              some ((countedIn tag ip bucket cfg).length + 1) := by
            simp [placeIn, Thread.resumed, log, arrival, place, same_tag, same_ip, same_bucket, answered]
          have places := filterMap_set_new at_index before placed
          have length : (countedIn tag ip bucket ⟨world, cfg.threads.set index (thread.resumed _ reply rest)⟩).length =
              (countedIn tag ip bucket cfg).length + 1 := by
            rw [counted_length, places.length_eq, List.length_cons, counted_length]
          constructor
          · unfold Numbered
            rw [length, List.range'_1_concat, Nat.add_comm 1]
            exact (places.trans (counting.numbered.cons _)).trans (List.perm_append_singleton _ _).symm
          · intro _
            constructor
            · rw [length]
              exact tally
            · exact fun _ => stored
        · apply unchanged
          · apply filterMap_set_same at_index
            rw [before]
            apply if_neg
            rintro ⟨same_tag, same_ip, same_bucket⟩
            apply counted
            simp only [Thread.resumed, log, arrival, List.findSome?, Option.map_some, Option.some.injEq]
              at same_bucket
            exact ⟨same_tag, same_ip, same_bucket⟩
          · have ran : exec false (.incr key) cfg.world = some (reply, world) := executed
            refine exec_other ran ?_
            rintro other (⟨⟨⟩⟩ | ⟨_, ⟨⟩⟩) same
            rw [named] at same
            exact counted (counterKey_injective (no_colon_tag _) plain same)
    | expire key ttl =>
        obtain ⟨rfl, time, log, named⟩ := issues
        have kept : (cfg.threads.set index (thread.resumed (.expire key windowSize) reply rest)).filterMap
            (placeIn tag ip bucket) = cfg.threads.filterMap (placeIn tag ip bucket) := by
          apply filterMap_set_same at_index
          simp [placeIn, Thread.resumed, log, arrival, place]
        by_cases counted : thread.request.tag = tag ∧ thread.request.ip = ip ∧ windowBucket time = bucket
        · obtain ⟨same_tag, same_ip, rfl⟩ := counted
          rw [same_tag, same_ip] at named
          subst named
          have past := arrived thread member ⟨.now, time⟩ (by simp [log]) time rfl
          rcases exec_expire past executed with rfl | ⟨old, present, named, deadline, late, rfl⟩
          · exact unchanged kept fun _ _ => Iff.rfl
          · refine ⟨numbered_same counting.numbered kept, fun current => ?_⟩
            have tallied := counting.tallied (earlier current)
            have length : (countedIn tag ip (windowBucket time) ⟨cfg.world.store { old with deadline := some deadline },
                cfg.threads.set index (thread.resumed _ reply rest)⟩).length =
                  (countedIn tag ip (windowBucket time) cfg).length := by
              rw [counted_length, counted_length, kept]
            constructor
            · intro counter among same
              rw [length]
              rcases List.mem_cons.mp among with rfl | elsewhere
              · refine ⟨(tallied.tally old present named).1, ?_⟩
                rintro _ ⟨⟩
                exact late
              · have other := (List.mem_filter.mp elsewhere).2
                rw [named, same] at other
                simp at other
            · exact fun _ => ⟨_, List.mem_cons_self, named⟩
        · have ran : exec refused (.expire key windowSize) cfg.world = some (reply, world) := executed
          apply unchanged kept
          refine exec_other ran ?_
          rintro other (⟨⟨⟩⟩ | ⟨_, ⟨⟩⟩) same
          rw [named] at same
          exact counted (counterKey_injective (no_colon_tag _) plain same)

theorem counting_reached {first last : Limiter} (start : Fresh first)
    (run : machine.Reaches Prompt first last) (plain : ':' ∉ tag.toList) : Counting tag ip bucket last := by
  have none_yet : first.threads.filterMap (placeIn tag ip bucket) = [] := by
    rw [start.threads]
    rfl
  have empty : countedIn tag ip bucket first = [] := by
    rw [countedIn, start.threads]
    rfl
  induction run with
  | refl =>
      refine ⟨?_, fun _ => ⟨?_, fun some_counted => absurd empty some_counted⟩⟩
      · unfold Numbered
        rw [none_yet, empty]
        exact .refl _
      · intro counter member
        rw [start.counters] at member
        cases member
  | tail label run prompt stepped ih =>
      exact counting_next plain ih (ordered start run) (arrived start run) prompt stepped

end Counting

section Windows
variable {first last : Limiter}

-- The places of one minute are all different and start at one.
theorem Counting.distinct (counting : Counting tag ip bucket cfg) :
    (cfg.threads.filterMap (placeIn tag ip bucket)).Nodup ∧
      ∀ place ∈ cfg.threads.filterMap (placeIn tag ip bucket),
        1 ≤ place ∧ place ≤ (countedIn tag ip bucket cfg).length := by
  have numbers := counting.numbered
  constructor
  · exact numbers.nodup_iff.mpr List.nodup_range'
  · intro place among
    have within := List.mem_range'_1.mp (numbers.mem_iff.mp among)
    omega

theorem ends_of_place {r : Request} {log : Log Reply} {program : Program Reply Answer} {count : Nat}
    (along : program.Along (Issues r) (Ends r) log) (placed : place log = some count) :
    program.Along (fun _ _ => True)
      (fun _ answer => answer = if count > r.limit then .tooMany else .forwarded) log := by
  have kept : program.Along (fun log _ => place log = some count)
      (fun after answer => Ends r after answer ∧ place after = some count) log := by
    refine along.keeps placed ?_
    intro log op reply issues placed
    cases op with
    | now => exact placed
    | incr key =>
        obtain ⟨time, rfl, _⟩ := issues
        cases placed
    | expire key ttl => exact placed
  refine kept.mono (fun _ _ _ => trivial) ?_
  rintro after answer ⟨⟨answered, _⟩, placed⟩
  rw [answered, verdict, placed]

theorem placeIn_cases {thread : LimiterThread} {count : Nat} (placed : placeIn tag ip bucket thread = some count) :
    thread.request.tag = tag ∧ thread.request.ip = ip ∧
      (arrival thread.log).map windowBucket = some bucket ∧ place thread.log = some count := by
  unfold placeIn at placed
  split at placed
  · next counted => exact ⟨counted.1, counted.2.1, counted.2.2, placed⟩
  · cases placed

theorem limit_of_tag {r r' : Request} (same : r.tag = r'.tag) : r.limit = r'.limit := by
  have limit (r : Request) : r.limit =
      if r.tag = "checkout_detect" then 30 else if r.tag = "checkout_recheck" then 12 else 10 := by
    unfold Request.tag Request.limit rateLimitPolicy
    split
    · rfl
    · split
      · rfl
      · split <;> rfl
  rw [limit, limit, same]

-- A forwarded request has a place in the minute it came in, not above the limit.
theorem forwarded_place {thread : LimiterThread} (ordered : Disciplined Issues Ends cfg)
    (member : thread ∈ cfg.threads) (passed : forwarded thread = true) :
    ∃ time count, arrival thread.log = some time ∧ count ≤ thread.request.limit ∧
      place thread.log = some count := by
  have ended : thread.program = .ret .forwarded := by
    unfold forwarded at passed
    split at passed
    · assumption
    · cases passed
  obtain ⟨answered, time, came⟩ := ordered.ends member ended
  unfold verdict at answered
  cases placed : place thread.log with
  | none => simp [placed] at answered
  | some count =>
      rw [placed] at answered
      refine ⟨time, count, came, ?_, rfl⟩
      by_contra exceeds
      simp [show count > thread.request.limit by omega] at answered

-- No more than the limit are forwarded of one minute's requests.
theorem forwarded_in_bucket {r : Request} (ordered : Disciplined Issues Ends last)
    (counting : Counting r.tag ip bucket last) :
    (forwardedWhen r.tag ip (fun time => windowBucket time = bucket) last).length ≤ r.limit := by
  -- Each of them has a place of its own, and no place is above the limit.
  have placed : ∀ thread ∈ forwardedWhen r.tag ip (fun time => windowBucket time = bucket) last,
      ∃ count, placeIn r.tag ip bucket thread = some count ∧ count ≤ r.limit := by
    intro thread among
    obtain ⟨member, chosen⟩ := List.mem_filter.mp among
    simp only [Bool.and_eq_true, decide_eq_true_eq, Option.any_eq_true] at chosen
    obtain ⟨passed, same_tag, same_ip, time, came, within⟩ := chosen
    obtain ⟨_, count, _, small, placed⟩ := forwarded_place ordered member passed
    refine ⟨count, ?_, ?_⟩
    · rw [placeIn, if_pos ⟨same_tag, same_ip, by rw [came, Option.map_some, within]⟩]
      exact placed
    · rw [← limit_of_tag same_tag]
      exact small
  obtain ⟨different, positive⟩ := counting.distinct
  have some_of : ((forwardedWhen r.tag ip (fun time => windowBucket time = bucket) last).filterMap
      (placeIn r.tag ip bucket)).length =
        (forwardedWhen r.tag ip (fun time => windowBucket time = bucket) last).length := by
    rw [List.length_filterMap_eq_countP, List.countP_eq_length]
    intro thread among
    obtain ⟨count, placed, _⟩ := placed thread among
    rw [placed]
    rfl
  have sub : ((forwardedWhen r.tag ip (fun time => windowBucket time = bucket) last).filterMap
      (placeIn r.tag ip bucket)).Sublist (last.threads.filterMap (placeIn r.tag ip bucket)) :=
    List.filter_sublist.filterMap _
  have within : (forwardedWhen r.tag ip (fun time => windowBucket time = bucket) last).filterMap
      (placeIn r.tag ip bucket) ⊆ List.range' 1 r.limit := by
    intro count among
    obtain ⟨thread, chosen, place⟩ := List.mem_filterMap.mp among
    obtain ⟨_, placed, small⟩ := placed thread chosen
    rw [place, Option.some.injEq] at placed
    have first := (positive count (sub.subset among)).1
    rw [List.mem_range'_1]
    omega
  have few := (List.subperm_of_subset (different.sublist sub) within).length_le
  rw [List.length_range'] at few
  omega

theorem windowBucket_window {start time : Nat} (after_start : start ≤ time)
    (before_end : time ≤ start + windowSize) :
    windowBucket time = windowBucket start ∨ windowBucket time = windowBucket start + 1 := by
  simp only [windowBucket, windowSize, secondLength] at *
  omega

theorem forwarded_in_window {r : Request} (ordered : Disciplined Issues Ends last)
    (counting : ∀ bucket, Counting r.tag ip bucket last) (start : Instant) :
    (forwardedWhen r.tag ip (fun time => start ≤ time && time ≤ start + windowSize) last).length ≤
      2 * r.limit := by
  have first := forwarded_in_bucket ordered (counting (windowBucket start))
  have second := forwarded_in_bucket ordered (counting (windowBucket start + 1))
  have both := length_filter_split
    (fun thread => forwarded thread && (thread.request.tag = r.tag && (thread.request.ip = ip &&
      (arrival thread.log).any fun time => start ≤ time && time ≤ start + windowSize)))
    (fun thread => forwarded thread && (thread.request.tag = r.tag && (thread.request.ip = ip &&
      (arrival thread.log).any fun time => windowBucket time = windowBucket start)))
    (fun thread => forwarded thread && (thread.request.tag = r.tag && (thread.request.ip = ip &&
      (arrival thread.log).any fun time => windowBucket time = windowBucket start + 1)))
    last.threads ?_
  · unfold forwardedWhen at first second ⊢
    omega
  · intro thread _ chosen
    simp only [Bool.and_eq_true, decide_eq_true_eq, Option.any_eq_true] at chosen ⊢
    obtain ⟨passed, same_tag, same_ip, time, came, after_start, before_end⟩ := chosen
    rcases windowBucket_window after_start before_end with here | next
    · exact .inl ⟨passed, same_tag, same_ip, time, came, here⟩
    · exact .inr ⟨passed, same_tag, same_ip, time, came, next⟩

/-- Of one tag's requests from one client, no more than the limit are forwarded of those
that came in one minute, whoever is counted while no more than the limit have been is
forwarded, and no more than twice the limit are forwarded of those that came within
sixty seconds. -/
theorem limiter_bounds_and_serves (start : Fresh first) (run : machine.Reaches Prompt first last)
    (r : Request) (ip : String) :
    (∀ bucket, (forwardedWhen r.tag ip (fun time => windowBucket time = bucket) last).length ≤ r.limit) ∧
    (∀ bucket, (countedIn r.tag ip bucket last).length ≤ r.limit →
      ∀ thread ∈ countedIn r.tag ip bucket last, WillForward thread) ∧
    ∀ start, (forwardedWhen r.tag ip (fun time => start ≤ time && time ≤ start + windowSize) last).length ≤
      2 * r.limit := by
  have ordered := ordered start run
  have counting (bucket : Nat) : Counting r.tag ip bucket last := counting_reached start run (no_colon_tag r)
  refine ⟨fun bucket => forwarded_in_bucket ordered (counting bucket), ?_,
    forwarded_in_window ordered counting⟩
  intro bucket few thread among
  obtain ⟨member, has_place⟩ := List.mem_filter.mp among
  obtain ⟨count, placed⟩ := Option.isSome_iff_exists.mp has_place
  obtain ⟨same_tag, _, _, place⟩ := placeIn_cases placed
  have small := ((counting bucket).distinct.2 count
    (List.mem_filterMap.mpr ⟨thread, member, placed⟩)).2
  refine (ends_of_place (ordered thread member) place).mono (fun _ _ _ => trivial) ?_
  rintro _ answer rfl
  rw [limit_of_tag same_tag, if_neg (by omega)]

def opening : Limiter := ⟨⟨[], 1767225600 * secondLength⟩, []⟩

def client : Request := ⟨"/", "192.0.2.7:1"⟩

/-- Eleven requests of the client, counted one after another from the `first` on. -/
def eleven (first : Nat) : List LimiterLabel :=
  List.replicate 11 (.arrive client) ++
    (List.range' first 11).flatMap (fun index => [.step index false, .step index false]) ++
    [.step first false]

/-- Eleven requests in the last second of a minute and eleven in the first of the next: of
each eleven ten are forwarded, and so twenty within sixty seconds. -/
theorem limiter_bounds_and_serves_meetup : ∃ last : Limiter,
    ((∀ bucket, (forwardedWhen "default" "192.0.2.7" (fun time => windowBucket time = bucket) last).length ≤ 10) ∧
      (∀ bucket, (countedIn "default" "192.0.2.7" bucket last).length ≤ 10 →
        ∀ thread ∈ countedIn "default" "192.0.2.7" bucket last, WillForward thread) ∧
      ∀ start, (forwardedWhen "default" "192.0.2.7"
        (fun time => start ≤ time && time ≤ start + windowSize) last).length ≤ 2 * 10) ∧
    (forwardedWhen "default" "192.0.2.7" (fun time => windowBucket time = 29453760) last).length = 10 ∧
    (forwardedWhen "default" "192.0.2.7"
      (fun time => opening.world.now ≤ time && time ≤ opening.world.now + windowSize) last).length = 20 := by
  obtain ⟨last, run, met⟩ := run_meets machine prompt
    (.event (59 * secondLength) :: eleven 0 ++ .event secondLength :: eleven 11) opening
    (fun last =>
      (forwardedWhen "default" "192.0.2.7" (fun time => windowBucket time = 29453760) last).length == 10 &&
      (forwardedWhen "default" "192.0.2.7"
        (fun time => opening.world.now ≤ time && time ≤ opening.world.now + windowSize) last).length == 20)
    (by decide +kernel)
  rw [Bool.and_eq_true, beq_iff_eq, beq_iff_eq] at met
  exact ⟨last, limiter_bounds_and_serves ⟨rfl, rfl⟩ run client "192.0.2.7", met⟩

end Windows
end Payknot.RateLimit
