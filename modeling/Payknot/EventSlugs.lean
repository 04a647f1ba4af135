import Payknot.EventOwnership
import Payknot.Slugs

/-! Stored slugs. `CreateEvent` stores what `buildEventSlug` makes of the title, or that with a
number; a stored slug is one path segment, no two events share one, and an event keeps its own. -/
namespace Payknot.Server
open GoText Interleaving Machine

section Choosing
variable {p : Platform}

def ToldFree (base : String) (log : History) : Prop := log.Saw (.sql (.eventSlugExists base)) (.ok false)

def Numbered (base slug : String) : Prop := ∃ n : Nat, slug = base ++ "-" ++ toString n

/-- The base itself when it is free, or else the base with a number. -/
def Chosen (base slug : String) (log : History) : Prop :=
  (slug = base ∧ ToldFree base log) ∨ (Numbered base slug ∧ ¬ ToldFree base log)

theorem Numbered.other {base slug : String} (numbered : Numbered base slug) : slug ≠ base := by
  obtain ⟨n, rfl⟩ := numbered
  intro same
  have lengths := congrArg (fun text => text.toList.length) same
  simp only [String.toList_append, List.length_append] at lengths
  have dash : "-".toList.length = 1 := by decide
  omega

theorem toldFree_cons {base : String} {log : History} {op : Payknot.Op} {reply : Payknot.Reply op}
    (other : op ≠ .sql (.eventSlugExists base)) : ToldFree base (⟨op, reply⟩ :: log) ↔ ToldFree base log := by
  constructor
  · intro told
    rcases List.mem_cons.mp told with here | earlier
    · exact absurd (congrArg Entry.op here).symm other
    · exact earlier
  · exact List.mem_cons_of_mem _

@[simp] theorem toldFree_now {base : String} {log : History} (now : Time) :
    ToldFree base (⟨.now, now⟩ :: log) ↔ ToldFree base log := toldFree_cons nofun

theorem Chosen.inserted {base slug ownerEmail : String} {columns : EventColumns} {log : History}
    (chosen : Chosen base slug log) {reply : Except Fault Int64} :
    Chosen base slug (⟨.sql (.insertEvent slug ownerEmail columns), reply⟩ :: log) := by
  have other : Op.sql (.insertEvent slug ownerEmail columns) ≠ .sql (.eventSlugExists base) := nofun
  unfold Chosen
  rwa [toldFree_cons other]

theorem numbered_of_nonneg {n : Int} (natural : 0 ≤ n) (base : String) :
    Numbered base (base ++ "-" ++ toString n) := by
  obtain ⟨m, rfl⟩ := Int.eq_ofNat_of_zero_le natural
  exact ⟨m, rfl⟩

-- Past the first round the candidates are numbered.
theorem along_numbered (base : String) (left : Nat) (slug : String) (log : History)
    (numbered : Numbered base slug) (taken : ¬ ToldFree base log) :
    (tryEventSlugs base left slug).Along (fun _ _ => True) (fun log slug => Chosen base slug log) log := by
  induction left generalizing slug log with
  | zero =>
      simp only [tryEventSlugs, along_timeNow, Program.along_pure, true_and]
      intro now
      have still : ¬ ToldFree base (⟨.now, now⟩ :: log) := by rwa [toldFree_now]
      exact .inr ⟨numbered_of_nonneg (Int.emod_nonneg _ (by decide)) base, still⟩
  | succ left ih =>
      have other : Op.sql (.eventSlugExists slug) ≠ .sql (.eventSlugExists base) := by
        intro same
        exact numbered.other (by simpa using same)
      have again (now : Time) : Numbered base
          (base ++ "-" ++ toString (unixNano now / second % 100000 + (49 - left : Nat))) := by
        apply numbered_of_nonneg
        have := Int.emod_nonneg (unixNano now / second) (show (100000 : Int) ≠ 0 by decide)
        omega
      simp only [tryEventSlugs, along_sql, true_and]
      rintro (fault | (_ | _))
      · simp only [along_timeNow, true_and]
        exact fun now => ih _ _ (again now) (by rwa [toldFree_now, toldFree_cons other])
      · rw [Program.along_pure]
        exact .inr ⟨numbered, by rwa [toldFree_cons other]⟩
      · simp only [along_timeNow, true_and]
        exact fun now => ih _ _ (again now) (by rwa [toldFree_now, toldFree_cons other])

theorem along_ensureUniqueEventSlug (base : String) :
    (ensureUniqueEventSlug base).Along (fun _ _ => True) (fun log slug => Chosen base slug log) [] := by
  have again (now : Time) : Numbered base
      (base ++ "-" ++ toString (unixNano now / second % 100000 + (49 - 49 : Nat))) := by
    apply numbered_of_nonneg
    have := Int.emod_nonneg (unixNano now / second) (show (100000 : Int) ≠ 0 by decide)
    omega
  rw [ensureUniqueEventSlug, tryEventSlugs]
  simp only [along_sql, true_and]
  rintro (fault | (_ | _))
  · simp only [along_timeNow, true_and]
    refine fun now => along_numbered base 49 _ _ (again now) ?_
    simp [ToldFree, Log.Saw]
  · rw [Program.along_pure]
    exact .inl ⟨rfl, List.mem_cons_self⟩
  · simp only [along_timeNow, true_and]
    refine fun now => along_numbered base 49 _ _ (again now) ?_
    simp [ToldFree, Log.Saw]

theorem accepted_title {body req : CreateEventRequest}
    (accepted : normalizeAndValidateEventRequest p body = .ok req) : req.title = trimSpace body.title := by
  unfold normalizeAndValidateEventRequest at accepted
  dsimp only at accepted
  generalize (if (body.trimmed p).eventSource = "" then "custom" else (body.trimmed p).eventSource) = source
    at accepted
  split at accepted
  · cases accepted
  · split at accepted
    · cases accepted
    · split at accepted
      · cases accepted
      · split at accepted
        · cases accepted
        · split at accepted
          · cases accepted
          · split at accepted
            · cases accepted
            · cases accepted
              rfl

theorem buildEventSlug_trimSpace (title : String) : buildEventSlug p (trimSpace title) = buildEventSlug p title := by
  rw [buildEventSlug_eq, buildEventSlug_eq, slugBase, slugBase, trimSpace_trimSpace]

def ChosenFor (p : Platform) (body : Option CreateEventRequest) (slug : String) (log : History) : Prop :=
  ∃ request, body = some request ∧ buildEventSlug p request.title ≠ "" ∧
    Chosen (buildEventSlug p request.title) slug log

def Inserts (p : Platform) (body : Option CreateEventRequest) (log : History) : Payknot.Op → Prop
  | .sql (.insertEvent slug _ _) => ChosenFor p body slug log
  | _ => True

def Answers (p : Platform) (body : Option CreateEventRequest) (log : History) : Payknot.Answer → Prop
  | .responded 200 (.event response) => ChosenFor p body response.slug log ∧ ∃ ownerEmail columns,
      log.Saw (.sql (.insertEvent response.slug ownerEmail columns)) (.ok response.eventID)
  | _ => True

theorem along_createEvent (claims : Option AuthClaims) (body : Option CreateEventRequest) :
    (createEvent p claims ⟨.post, body⟩).Along (Inserts p body) (Answers p body) [] := by
  unfold createEvent
  cases body with
  | none => simp [Answers, httpError]
  | some request =>
      simp only [ne_eq, not_true_eq_false, if_false]
      cases accepted : normalizeAndValidateEventRequest p request with
      | error text => simp [Answers, httpError]
      | ok req =>
          have base : buildEventSlug p req.title = buildEventSlug p request.title := by
            rw [accepted_title accepted, buildEventSlug_trimSpace]
          cases claims with
          | none => simp [Answers, httpError]
          | some claims =>
              dsimp only
              cases eventTimes p req with
              | error text => simp [Answers, httpError]
              | ok times =>
                  dsimp only
                  rw [base]
                  split
                  · simp [Answers, httpError]
                  · next filled =>
                    have asks : (ensureUniqueEventSlug (buildEventSlug p request.title)).Along
                        (Inserts p (some request)) (fun _ _ => True) [] :=
                      along_tryEventSlugs (fun _ _ => trivial) (fun _ => trivial) _ _ _ _
                    have named := along_ensureUniqueEventSlug (buildEventSlug p request.title)
                    refine ((asks.and named).mono (fun _ _ both => both.1) fun _ _ both => both.2).sequence
                      fun log slug _ chosen => ?_
                    have given : ChosenFor p (some request) slug log := ⟨request, rfl, filled, chosen⟩
                    rw [along_sql]
                    refine ⟨given, ?_⟩
                    rintro (fault | id)
                    · simp [Answers, httpError]
                    · rw [Program.along_pure]
                      exact ⟨⟨request, rfl, filled, chosen.inserted⟩, _, _, List.mem_cons_self⟩

end Choosing

section Server
variable {e : Environment} {init cfg after : Service} {label : ServiceLabel}

/-- The database has told the request that no event has this slug. -/
def SlugFree (base : String) (log : Log Reply) : Prop :=
  log.Saw (.core (.sql (.eventSlugExists base))) (.ok false)

/-- The slug is what the title makes, when that is free, or else that with a number. -/
def ChosenBy (e : Environment) (request : Request) (slug : String) (log : Log Reply) : Prop :=
  ∃ c body, request = .events c (some body) ∧ buildEventSlug e.platform body.title ≠ "" ∧
    ((slug = buildEventSlug e.platform body.title ∧ SlugFree (buildEventSlug e.platform body.title) log) ∨
      (Numbered (buildEventSlug e.platform body.title) slug ∧
        ¬ SlugFree (buildEventSlug e.platform body.title) log))

/-- Of the core a log holds what the core's program has seen, after a log without any. -/
theorem slugFree_lift {base : String} {seen : History} {before : Log Reply}
    (checks : ∀ entry ∈ before, entry.op.checks = true) :
    SlugFree base (seen.map (Entry.lift Op.core) ++ before) ↔ ToldFree base seen := by
  constructor
  · intro free
    rcases List.mem_append.mp free with told | earlier
    · obtain ⟨⟨op, reply⟩, member, same⟩ := List.mem_map.mp told
      cases same
      exact member
    · cases checks _ earlier
  · intro told
    exact List.mem_append_left _ (@Log.Saw.lift _ _ Reply Op.core _ _ _ told)

theorem ChosenFor.lift {c : Credentials} {body : Option CreateEventRequest} {slug : String} {seen : History}
    (chosen : ChosenFor e.platform body slug seen) {before : Log Reply}
    (checks : ∀ entry ∈ before, entry.op.checks = true) :
    ChosenBy e (.events c body) slug (seen.map (Entry.lift Op.core) ++ before) := by
  obtain ⟨request, rfl, filled, chosen⟩ := chosen
  refine ⟨c, request, rfl, filled, ?_⟩
  rw [slugFree_lift checks]
  exact chosen

/-- Events are inserted under the slug chosen, and their creation is answered with it. -/
def InsertsChosen (e : Environment) (request : Request) (log : Log Reply) : Op → Prop
  | .core (.sql (.insertEvent slug _ _)) => ChosenBy e request slug log
  | _ => True

def AnswersCreated (e : Environment) (request : Request) (log : Log Reply) (answer : Answer) : Prop :=
  ∀ c body response, request = .events c body → answer = .core (.responded 200 (.event response)) →
    ChosenBy e request response.slug log ∧ ∃ ownerEmail columns,
      log.Saw (.core (.sql (.insertEvent response.slug ownerEmail columns))) (.ok response.eventID)

theorem inserts_checks {request : Request} {log : Log Reply} {op : Op} (checks : op.checks = true) :
    InsertsChosen e request log op := by
  cases op with
  | core part => cases checks
  | _ => trivial

theorem answers_other {request : Request} {log : Log Reply} {answer : Answer}
    (other : ∀ response, answer ≠ .core (.responded 200 (.event response))) : AnswersCreated e request log answer :=
  fun _ _ response _ same => absurd same (other response)

theorem chosen_eventsRoot (c : Credentials) (body : Option CreateEventRequest) (claims : Accounts.UserClaims)
    {log : Log Reply} (checks : ∀ entry ∈ log, entry.op.checks = true) :
    (eventsRoot e c body claims).Along (InsertsChosen e (.events c body))
      (AnswersCreated e (.events c body)) log := by
  unfold eventsRoot
  split
  · have created := (along_createEvent (p := e.platform) (some ⟨claims.email⟩) body).lift Op.core log
    refine (created.mono ?_ fun _ _ ended => ended).sequence fun _ answer _ ended => ?_
    · rintro _ _ ⟨op, seen, rfl, rfl, inserts⟩
      cases op with
      | sql statement =>
          cases statement with
          | insertEvent slug ownerEmail columns => exact ChosenFor.lift inserts checks
          | _ => trivial
      | _ => trivial
    · obtain ⟨seen, rfl, ended⟩ := ended
      rw [Program.along_pure]
      rintro _ _ response _ ⟨⟩
      obtain ⟨chosen, ownerEmail, columns, saw⟩ := ended
      exact ⟨chosen.lift checks, ownerEmail, columns, List.mem_append_left _ (@Log.Saw.lift _ _ Reply Op.core _ _ _ saw)⟩
  · split
    · unfold listEvents query
      rw [Program.along_perform_bind]
      refine ⟨trivial, fun reply => ?_⟩
      cases reply with
      | error fault => rw [Program.along_pure]; exact answers_other nofun
      | ok rows => rw [Program.along_pure]; exact answers_other nofun
    · rw [Program.along_pure]
      exact answers_other nofun

theorem chosen_handler (request : Request) :
    (handler e request).Along (InsertsChosen e request) (AnswersCreated e request) [] := by
  by_cases creates : ∃ c body, request = .events c body
  · obtain ⟨c, body, rfl⟩ := creates
    have start : ∀ entry ∈ ([] : Log Reply), entry.op.checks = true := by simp
    have asked : (authenticateOrAgent e c).Along (fun log _ => ∀ entry ∈ log, entry.op.checks = true)
        (fun log _ => True ∧ ∀ entry ∈ log, entry.op.checks = true) [] := by
      refine (along_authenticateOrAgent c []).keeps start ?_
      intro log op reply checked held entry member
      rcases List.mem_cons.mp member with rfl | earlier
      · exact checked
      · exact held entry earlier
    · have issued := (along_authenticateOrAgent (e := e) c []).and asked
      refine (issued.mono (fun _ _ both => inserts_checks both.1) fun _ _ both => both.2.2).sequence
        fun log claims _ checks => ?_
      cases claims with
      | none =>
          rw [Program.along_pure]
          exact answers_other nofun
      | some claims => exact chosen_eventsRoot c body claims checks
  · -- No other request inserts an event.
    refine (along_handler request).mono ?_ ?_
    · intro log op issued
      unfold InsertsChosen
      split
      · obtain ⟨⟨c, body, same, _⟩, _⟩ := issued
        exact absurd ⟨c, body, same⟩ creates
      · trivial
    · intro log answer _ c body _ same
      exact absurd ⟨c, body, same⟩ creates

def Addressable (slug : String) : Prop := slug ≠ "" ∧ ∀ c ∈ slug.toList, isSlugRune c = true

theorem digits_slug (n : Nat) : ∀ c ∈ (toString n).toList, isSlugRune c = true := by
  intro c member
  have digit := List.all_eq_true.mp (toDigits_digits n).2 c (by simpa [Nat.repr] using member)
  simp only [Char.isDigit, Bool.and_eq_true, decide_eq_true_eq] at digit
  have number : '0' ≤ c ∧ c ≤ '9' := ⟨digit.1, digit.2⟩
  simp [isSlugRune, number]

theorem ChosenBy.addressable {request : Request} {slug : String} {log : Log Reply}
    (chosen : ChosenBy e request slug log) : Addressable slug := by
  obtain ⟨c, body, _, filled, ⟨rfl, _⟩ | ⟨⟨n, rfl⟩, _⟩⟩ := chosen
  · exact ⟨filled, (slugText_build _).runes⟩
  · constructor
    · simp
    · intro c member
      simp only [String.toList_append, List.mem_append] at member
      rcases member with (base | dash) | digits
      · exact (slugText_build _).runes c base
      · have only : c = '-' := by simpa using dash
        rw [only]
        rfl
      · exact digits_slug n c digits

/-- The slugs of the stored events: path segments, each of one event only. -/
structure Addressed (w : Payknot.World) : Prop where
  distinct : (w.events.map EventRow.slug).Nodup
  slugs : ∀ row ∈ w.events, Addressable row.slug

theorem Addressed.same {w : Payknot.World} (addressed : Addressed w) {row row' : EventRow}
    (member : row ∈ w.events) (member' : row' ∈ w.events) (same : row.slug = row'.slug) : row = row' :=
  List.inj_on_of_nodup_map addressed.distinct member member' same

theorem inserted_new {p : Platform} {choice : Payknot.Choice} {slug ownerEmail : String} {columns : EventColumns}
    {reply : Except Fault Int64} {w w' : Payknot.World}
    (executed : Payknot.exec p choice (.sql (.insertEvent slug ownerEmail columns)) w = some (reply, w'))
    (written : w'.events ≠ w.events) : ∀ row ∈ w.events, row.slug ≠ slug := by
  rcases exec_sql executed with ⟨_, _, rfl⟩ | ⟨value, _, ran⟩
  · exact absurd rfl written
  · simp only [Sql.run] at ran
    split at ran
    · cases ran
    · next free => simpa using free

theorem Addressed.next (addressed : Addressed cfg.world.core)
    (disciplined : Disciplined (InsertsChosen e) (AnswersCreated e) cfg)
    (stepped : (machine e).next cfg label = some after) : Addressed after.world.core := by
  rcases step_events stepped with ⟨events, _⟩ | ⟨_, _, thread, part, _, _, at_index, issues, executed⟩
  · constructor
    · rw [events]
      exact addressed.distinct
    · rw [events]
      exact addressed.slugs
  · rcases exec_events executed with unchanged | ⟨slug, owner, columns, rfl, added, _⟩ |
      ⟨_, _, _, _, updated⟩ | ⟨_, _, _, _, removed⟩
    · constructor
      · rw [unchanged]
        exact addressed.distinct
      · rw [unchanged]
        exact addressed.slugs
    · have chosen : ChosenBy e thread.request slug thread.log :=
        disciplined.issues (List.mem_of_getElem? at_index) issues
      have new := inserted_new executed (by simp [added])
      constructor
      · rw [added, List.map_append, List.nodup_append]
        refine ⟨addressed.distinct, by simp, ?_⟩
        intro old among other only same
        obtain ⟨row, member, rfl⟩ := List.mem_map.mp among
        simp only [List.map_cons, List.map_nil, List.mem_singleton] at only
        exact new row member (same.trans only)
      · intro row member
        rw [added] at member
        rcases List.mem_append.mp member with old | newest
        · exact addressed.slugs row old
        · cases List.mem_singleton.mp newest
          exact chosen.addressable
    · constructor
      · have slugs : after.world.core.events.map EventRow.slug = cfg.world.core.events.map EventRow.slug := by
          rw [updated, updateWhere, List.map_map]
          apply List.map_congr_left
          intro row _
          simp only [Function.comp_apply]
          split <;> rfl
        rw [slugs]
        exact addressed.distinct
      · intro row member
        rw [updated] at member
        obtain ⟨old, among, ⟨_, rfl⟩ | ⟨_, rfl⟩⟩ := mem_updateWhere member
        · exact addressed.slugs old among
        · exact addressed.slugs row among
    · constructor
      · rw [removed]
        exact addressed.distinct.sublist (List.filter_sublist.map _)
      · intro row member
        rw [removed] at member
        exact addressed.slugs row (List.mem_filter.mp member).1

/-- An event that is there was there under its number and slug, or has a new number. -/
theorem slug_origin {p : Platform} {choice : Payknot.Choice} {op : Payknot.Op} {w w' : Payknot.World}
    {reply : Payknot.Reply op} (executed : Payknot.exec p choice op w = some (reply, w')) {row : EventRow}
    (member : row ∈ w'.events) : (∃ old ∈ w.events, old.id = row.id ∧ old.slug = row.slug) ∨
      (row.id = Int64.ofNat w.nextEventId ∧ w.nextEventId < 2 ^ 63) := by
  rcases exec_events executed with unchanged | ⟨slug, owner, columns, rfl, added, fits, _⟩ |
    ⟨id, owner, columns, rfl, updated⟩ | ⟨id, owner, rfl, _, removed⟩
  · rw [unchanged] at member
    exact .inl ⟨row, member, rfl, rfl⟩
  · rw [added] at member
    rcases List.mem_append.mp member with old | new
    · exact .inl ⟨row, old, rfl, rfl⟩
    · cases List.mem_singleton.mp new
      exact .inr ⟨rfl, fits⟩
  · rw [updated] at member
    obtain ⟨old, among, ⟨_, rfl⟩ | ⟨_, rfl⟩⟩ := mem_updateWhere member
    · exact .inl ⟨old, among, rfl, rfl⟩
    · exact .inl ⟨row, among, rfl, rfl⟩
  · rw [removed] at member
    exact .inl ⟨row, (List.mem_filter.mp member).1, rfl, rfl⟩

def Holds (id : Int64) (slug : String) (w : Payknot.World) : Prop :=
  id.toInt < w.nextEventId ∧ ∀ row ∈ w.events, row.id = id → row.slug = slug

theorem Holds.next {id : Int64} {slug : String} (holds : Holds id slug cfg.world.core)
    (stepped : (machine e).next cfg label = some after) : Holds id slug after.world.core := by
  rcases step_events stepped with ⟨events, ids⟩ | ⟨_, _, _, _, _, _, _, _, executed⟩
  · unfold Holds
    rw [events, ids]
    exact holds
  · have grown := eventIds_grow executed
    have given := holds.1
    refine ⟨by omega, fun row member same => ?_⟩
    rcases slug_origin executed member with ⟨old, among, number, kept⟩ | ⟨number, fits⟩
    · rw [← kept]
      exact holds.2 old among (number.trans same)
    · rw [← same, number, Int64.toInt_ofNat_of_lt fits] at given
      omega

def Placed (w : Payknot.World) : Entry Reply → Prop
  | ⟨.core (.sql (.insertEvent slug _ _)), .ok id⟩ => Holds id slug w
  | _ => True

theorem placed_fresh {choice : Choice} {op : Op} {reply : Reply op} {w w' : World} (catalogued : Catalogued w.core)
    (executed : exec e choice op w = some (reply, w')) : Placed w'.core ⟨op, reply⟩ := by
  unfold Placed
  split
  · next slug ownerEmail columns id same =>
    cases same
    simp only [exec, Option.map_eq_some_iff] at executed
    obtain ⟨⟨answer, core⟩, ran, same⟩ := executed
    cases same
    rcases exec_sql ran with ⟨_, wrong, _⟩ | ⟨value, told, inserted⟩
    · cases wrong
    · cases told
      simp only [Sql.run] at inserted
      split at inserted
      · cases inserted
      · split at inserted
        · next fits =>
          cases inserted
          refine ⟨by rw [Int64.toInt_ofNat_of_lt fits]; exact Int.lt_succ _, fun row member same => ?_⟩
          rcases List.mem_append.mp member with old | new
          · have below := catalogued.drawn row old
            rw [same, Int64.toInt_ofNat_of_lt fits] at below
            omega
          · cases List.mem_singleton.mp new
            rfl
        · cases inserted
  · trivial

/-- In every run slugs are path segments of one event each, and an event keeps the slug its
creation was answered with. -/
theorem slugs_stored (start : init.threads = []) (catalogued : Catalogued init.world.core)
    (addressed : Addressed init.world.core) (run : (machine e).Reaches anyStep init cfg) :
    Disciplined (InsertsChosen e) (AnswersCreated e) cfg ∧ Addressed cfg.world.core ∧
      Seen (Placed cfg.world.core) cfg := by
  have held := run.invariant (fun cfg => Disciplined (InsertsChosen e) (AnswersCreated e) cfg ∧
      Catalogued cfg.world.core ∧ Addressed cfg.world.core ∧ Seen (Placed cfg.world.core) cfg)
    ⟨by simp [Disciplined, start], catalogued, addressed, by simp [Seen, start]⟩ ?_
  · exact ⟨held.1, held.2.2⟩
  · rintro before label after ⟨disciplined, catalogued, addressed, seen⟩ _ stepped
    refine ⟨disciplined_next chosen_handler disciplined stepped, catalogued.next stepped,
      addressed.next disciplined stepped, seen_next seen stepped ?_ ?_⟩
    · intro entry placed
      unfold Placed at placed ⊢
      split at placed
      · exact placed.next stepped
      · trivial
    · exact fun _ _ _ _ _ _ executed => placed_fresh catalogued executed

end Server

end Payknot.Server
