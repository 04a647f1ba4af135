import Payknot.CheckoutRoutes
import Payknot.EmailMatching

/-! Refusal and receipt. An e-mail is refused when a paid row's text, lowered, is that e-mail; the
page then looks the receipt up by containment of the e-mail as it is in the stored document. -/
namespace Payknot.Server
open GoText Interleaving Machine

variable {e : Environment} {init cfg after : Service} {label : ServiceLabel} {w : World}

section References

/-- `event_checkouts.reference` is UNIQUE. -/
def Referenced (w : Payknot.World) : Prop := (w.checkouts.map CheckoutRow.reference).Nodup

theorem nodup_updateWhere {selected : CheckoutRow → Bool} {set : CheckoutRow → CheckoutRow}
    (keeps : ∀ row, (set row).reference = row.reference) {rows : List CheckoutRow}
    (nodup : (rows.map CheckoutRow.reference).Nodup) :
    ((updateWhere selected set rows).map CheckoutRow.reference).Nodup := by
  have same : (updateWhere selected set rows).map CheckoutRow.reference = rows.map CheckoutRow.reference := by
    rw [updateWhere, List.map_map]
    apply List.map_congr_left
    intro row _
    simp only [Function.comp_apply]
    split
    · exact keeps row
    · rfl
  rwa [same]

theorem Referenced.exec {p : Platform} {choice : Payknot.Choice} {op : Payknot.Op} {reply : Payknot.Reply op}
    {w w' : Payknot.World} (referenced : Referenced w)
    (executed : Payknot.exec p choice op w = some (reply, w')) : Referenced w' := by
  unfold Referenced at referenced ⊢
  rcases exec_checkouts executed with unchanged | ⟨checkout, data, _, _, _, written⟩ |
    ⟨checkout, data, _, _, fresh, added⟩ | ⟨_, _, removed⟩ | ⟨_, _, _, _, marked⟩ | ⟨_, _, marked⟩ |
    ⟨_, _, _, removed⟩
  · rwa [unchanged]
  · rw [written]
    refine nodup_updateWhere (fun row => ?_) referenced
    rfl
  · rw [added, List.map_append, List.nodup_append]
    refine ⟨referenced, by simp, ?_⟩
    intro reference among other only same
    obtain ⟨row, member, rfl⟩ := List.mem_map.mp among
    simp only [List.map_cons, List.map_nil, List.mem_singleton] at only
    exact fresh row member (same.trans only)
  · rw [removed]
    exact referenced.sublist (List.filter_sublist.map _)
  · rw [marked]
    refine nodup_updateWhere (fun row => ?_) referenced
    rfl
  · rw [marked]
    refine nodup_updateWhere (fun row => ?_) referenced
    rfl
  · rw [removed]
    exact referenced.sublist (List.filter_sublist.map _)

theorem Referenced.next (referenced : Referenced cfg.world.core)
    (stepped : (machine e).next cfg label = some after) : Referenced after.world.core := by
  rcases next_cases stepped with ⟨_, _, rfl⟩ | ⟨event, world, _, occurred, rfl⟩ |
    ⟨index, choice, thread, op, rest, reply, world, rfl, _, _, executed, rfl⟩
  · exact referenced
  · simp only [machine, occur, Option.map_eq_some_iff] at occurred
    obtain ⟨core, happened, rfl⟩ := occurred
    have unchanged : core.checkouts = cfg.world.core.checkouts := occur_frame .checkouts happened (by decide)
    unfold Referenced
    rwa [unchanged]
  · rcases exec_core executed with same | ⟨part, answer, rfl, ran⟩
    · rwa [same]
    · exact referenced.exec ran

theorem Referenced.find (referenced : Referenced w.core) {row : CheckoutRow} (member : row ∈ w.core.checkouts) :
    w.core.checkouts.find? (·.reference = row.reference) = some row := by
  cases found : w.core.checkouts.find? (·.reference = row.reference) with
  | none =>
      have none_such := List.find?_eq_none.mp found row member
      simp at none_such
  | some other =>
      have same : other.reference = row.reference := by simpa using List.find?_some found
      rw [List.inj_on_of_nodup_map referenced (List.mem_of_find?_eq_some found) member same]

end References

section Lookup
variable {event : EventRow}

def emailOnly (email : String) : Option Object := some [("email", .str email)]

def Holding (e : Environment) (email : String) (row : CheckoutRow) : Prop :=
  ∃ data, e.platform.jsonb (e.platform.marshalMap (emailOnly email)) = some data ∧
    e.jsonbContains row.participantData data = true

/-- Every run of the lookup in this state, without a failure, answers with a paid receipt. -/
def Receipt (e : Environment) (w : World) (slug email : String) : Prop :=
  (getParticipantStatus e ⟨.post, some ⟨slug, emailOnly email⟩⟩).Ensures (Sound e)
    (fun answer _ => ∃ response, answer = .core (.responded 200 (.checkoutStatus response)) ∧
      response.status = "paid") w

theorem ensures_paidReference {Result : Type} {post : Result → World → Prop} {slug text : String}
    {next : Except Fault (Option String) → Handler Result} :
    (query (.paidReference slug text) >>= next).Ensures (Sound e) post w ↔
      (next (runQuery e ⟨none, none, none, .unavailable, .unreachable⟩ (.paidReference slug text) w)).Ensures
        (Sound e) post w := by
  unfold query
  rw [Program.ensures_perform_bind]
  constructor
  · intro held
    exact held _ _ ⟨⟨none, none, none, .unavailable, .unreachable⟩, rfl, rfl⟩
  · rintro held reply middle ⟨choice, is_up, executed⟩
    change some _ = some (reply, middle) at executed
    rw [is_up] at executed
    cases executed
    exact held

theorem ensures_checkoutStatus {Result : Type} {post : Result → World → Prop} {reference : String}
    {next : Option CheckoutStatusResponse → Handler Result} :
    (core (getCheckoutStatusByReference reference) >>= next).Ensures (Sound e) post w ↔
      (next ((w.core.checkouts.find? (·.reference = reference)).map CheckoutRow.response)).Ensures
        (Sound e) post w := by
  unfold getCheckoutStatusByReference core
  rw [Program.lift_bind, Program.bind_assoc]
  change (core (sql (.selectCheckout reference)) >>= _).Ensures (Sound e) post w ↔ _
  rw [ensures_core_sql]
  simp only [Sql.run, settle]
  cases w.core.checkouts.find? (·.reference = reference) with
  | none => rfl
  | some row => rfl

theorem mem_paidMatches (addressed : Addressed w.core) (stored : event ∈ w.core.events) {data : Json}
    {row : CheckoutRow} : row ∈ paidMatches e event.slug data w.core ↔
      row ∈ paidOthers w.core event.id none ∧ e.jsonbContains row.participantData data = true := by
  unfold paidMatches paidOthers
  simp only [List.mem_filter, Bool.and_eq_true, decide_eq_true_eq, List.any_eq_true, CheckoutRow.isPaid,
    Option.all_none, and_true]
  constructor
  · rintro ⟨member, paid, contains, other, among, same, slug⟩
    cases addressed.same among stored slug
    exact ⟨⟨member, same.symm, paid⟩, contains⟩
  · rintro ⟨⟨member, of_event, paid⟩, contains⟩
    exact ⟨member, paid, contains, event, stored, of_event.symm, rfl⟩

theorem Addressable.trimmed {slug : String} (addressable : Addressable slug) : trimSpace slug = slug :=
  trimSpace_self (fun c head => isSpace_slug (addressable.2 c (List.mem_of_mem_head? head)))
    fun c last => isSpace_slug (addressable.2 c (List.mem_of_mem_getLast? last))

theorem receipt_iff (addressed : Addressed w.core) (referenced : Referenced w.core)
    (stored : event ∈ w.core.events) (email : String) :
    Receipt e w event.slug email ↔ ∃ row ∈ paidOthers w.core event.id none, Holding e email row := by
  have addressable := addressed.slugs event stored
  unfold Receipt getParticipantStatus
  simp only [ne_eq, not_true_eq_false, if_false]
  rw [addressable.trimmed, if_neg addressable.1]
  simp only [emailOnly, Option.getD_some, List.isEmpty_cons, Bool.false_eq_true, if_false]
  rw [ensures_paidReference]
  unfold Holding
  simp only [runQuery, emailOnly]
  cases e.platform.jsonb (e.platform.marshalMap (some [("email", .str email)])) with
  | none => simp
  | some data =>
      simp only [Option.some.injEq, exists_eq_left', ← mem_paidMatches addressed stored]
      cases sorted : (paidMatches e event.slug data w.core).mergeSort paidLater with
      | nil =>
          have empty : ∀ row, row ∉ paidMatches e event.slug data w.core := by
            intro row member
            have among : row ∈ (paidMatches e event.slug data w.core).mergeSort paidLater :=
              List.mem_mergeSort.mpr member
            rw [sorted] at among
            cases among
          simp [empty]
      | cons row rest =>
          have found : row ∈ paidMatches e event.slug data w.core := by
            apply List.mem_mergeSort.mp
            rw [sorted]
            exact List.mem_cons_self
          have member := (List.mem_filter.mp ((mem_paidMatches addressed stored).mp found).1)
          have paid : row.status = .paid := by
            have chosen := member.2
            simp only [Bool.and_eq_true, CheckoutRow.isPaid, decide_eq_true_eq] at chosen
            exact chosen.1.2
          refine iff_of_true ?_ ⟨row, found⟩
          simp only [List.head?_cons, Option.map_some]
          rw [ensures_checkoutStatus, referenced.find member.1]
          simp only [Option.map_some, Program.ensures_pure]
          exact ⟨row.response, rfl, by rw [CheckoutRow.response, paid]; rfl⟩

end Lookup

section Agreement

/-- The text the refusal compares with: the page's e-mail, already trimmed and lowered, is its own. -/
def refusedText (e : Environment) (email : String) : String := normalizeEmail e.platform (emailOnly email)

/-- What the database does with this e-mail alone and with documents that have one. -/
structure FindsEmail (e : Environment) (email : String) : Prop where
  document : e.platform.jsonb (e.platform.marshalMap (emailOnly email)) = some (.obj [("email", .str email)])
  contained : ∀ document, e.jsonbContains document (.obj [("email", .str email)]) = true ↔
    ∃ members, document = .obj members ∧ lookup members "email" = .str email

/-- The document gives no e-mail, or a string in the spelling that `LOWER` leaves it in, which is
not empty and not the text of an absent one. -/
def Lowered (e : Environment) (document : Json) : Prop :=
  ∀ members, document = .obj members → lookup members "email" ≠ .null →
    ∃ text, lookup members "email" = .str text ∧ e.platform.lower text = text ∧ text ≠ "" ∧ text ≠ "<nil>"

theorem holding_iff {email : String} (finds : FindsEmail e email) (row : CheckoutRow) :
    Holding e email row ↔ ∃ members, row.participantData = .obj members ∧ lookup members "email" = .str email := by
  simp only [Holding, finds.document, Option.some.injEq, exists_eq_left', finds.contained]

-- Refusal and lookup take a row alike whose e-mail is stored lowered.
theorem Lowered.alike {email : String} (reading : ReadsEmail e.platform) (finds : FindsEmail e email)
    {row : CheckoutRow} (stored : Lowered e row.participantData) (filled : email ≠ "") :
    row.loweredEmail e.platform = email ↔ Holding e email row := by
  rw [holding_iff finds, CheckoutRow.loweredEmail]
  by_cases given : ∃ members, row.participantData = .obj members ∧ lookup members "email" ≠ .null
  · obtain ⟨members, document, carried⟩ := given
    obtain ⟨text, is_text, lower, _⟩ := stored members document carried
    rw [document, reading.string members text is_text, Option.getD_some, lower]
    simp [is_text]
  · have absent : ∀ members, row.participantData = .obj members → lookup members "email" = .null :=
      fun members document => not_not.mp fun carried => given ⟨members, document, carried⟩
    rw [reading.absent _ absent, Option.getD_none, reading.empty]
    refine iff_of_false filled.symm ?_
    rintro ⟨members, document, carried⟩
    rw [absent members document] at carried
    cases carried

theorem Lowered.not_held {email : String} (finds : FindsEmail e email) {row : CheckoutRow}
    (stored : Lowered e row.participantData) (missing : email = "" ∨ email = "<nil>") : ¬ Holding e email row := by
  rw [holding_iff finds]
  rintro ⟨members, document, carried⟩
  obtain ⟨text, is_text, _, filled, present⟩ := stored members document (by simp [carried])
  rw [carried, Json.str.injEq] at is_text
  rw [← is_text] at filled present
  exact missing.elim filled present

/-- A row under a string is stored lowered if `LOWER` leaves the string as it is. -/
theorem lowered_string {row : CheckoutRow} {members : Object} {text : String}
    (document : row.participantData = .obj members) (carried : lookup members "email" = .str text)
    (filled : text ≠ "") (present : text ≠ "<nil>") :
    Lowered e row.participantData ↔ e.platform.lower text = text := by
  rw [document]
  constructor
  · intro stored
    obtain ⟨other, is_text, lower, _⟩ := stored members rfl (by simp [carried])
    rw [carried, Json.str.injEq] at is_text
    rwa [is_text]
  · rintro lower other ⟨⟩ _
    exact ⟨text, carried, lower, filled, present⟩

theorem refused_iff {w : Payknot.World} {eventID : Int64} (email : String) :
    Refuses e.platform w (ensureParticipantEmailAvailable e.platform eventID (emailOnly email)) ↔
      refusedText e email ≠ "" ∧ refusedText e email ≠ "<nil>" ∧
        ∃ row ∈ paidOthers w eventID none, row.loweredEmail e.platform = refusedText e email :=
  refuses_ensure_iff.trans emailAnswer_refuses_iff

/-- In every state of every run, for every event and every e-mail as the page sends it: refusal and
paid receipt agree if the event's deposits are stored under lowered e-mails. For a deposit that is
alone in its event, under a string, they agree on every such e-mail only then. -/
theorem refusal_receipt_agree (start : init.threads = []) (catalogued : Catalogued init.world.core)
    (addressed : Addressed init.world.core) (referenced : Referenced init.world.core)
    (reading : ReadsEmail e.platform) (run : (machine e).Reaches anyStep init cfg) {event : EventRow}
    (stored : event ∈ cfg.world.core.events) :
    (∀ email, FindsEmail e email → refusedText e email = email →
      (∀ row ∈ paidOthers cfg.world.core event.id none, Lowered e row.participantData) →
      (Refuses e.platform cfg.world.core (ensureParticipantEmailAvailable e.platform event.id (emailOnly email)) ↔
        Receipt e cfg.world event.slug email)) ∧
    ∀ row members text, paidOthers cfg.world.core event.id none = [row] → row.participantData = .obj members →
      lookup members "email" = .str text → text ≠ "" → text ≠ "<nil>" → FindsEmail e (e.platform.lower text) →
      refusedText e (e.platform.lower text) = e.platform.lower text →
      e.platform.lower text ≠ "" → e.platform.lower text ≠ "<nil>" →
      ((∀ email, FindsEmail e email → refusedText e email = email →
        (Refuses e.platform cfg.world.core
            (ensureParticipantEmailAvailable e.platform event.id (emailOnly email)) ↔
          Receipt e cfg.world event.slug email)) ↔ Lowered e row.participantData) := by
  have referenced : Referenced cfg.world.core := run.invariant (fun cfg => Referenced cfg.world.core) referenced
    fun _ _ _ held _ stepped => held.next stepped
  have addressed := (slugs_stored start catalogued addressed run).2.1
  have agree {email : String} (finds : FindsEmail e email) (sent : refusedText e email = email)
      (lowered : ∀ row ∈ paidOthers cfg.world.core event.id none, Lowered e row.participantData) :
      Refuses e.platform cfg.world.core (ensureParticipantEmailAvailable e.platform event.id (emailOnly email)) ↔
        Receipt e cfg.world event.slug email := by
    rw [refused_iff, receipt_iff addressed referenced stored, sent]
    by_cases missing : email = "" ∨ email = "<nil>"
    · refine iff_of_false ?_ ?_
      · rintro ⟨filled, present, _⟩
        exact missing.elim filled present
      · rintro ⟨row, among, holds⟩
        exact (lowered row among).not_held finds missing holds
    · obtain ⟨filled, present⟩ := not_or.mp missing
      simp only [ne_eq, filled, present, not_false_eq_true, true_and]
      exact exists_congr fun row => and_congr_right fun among => (lowered row among).alike reading finds filled
  refine ⟨fun email finds sent lowered => agree finds sent lowered, ?_⟩
  intro row members text alone document carried filled present finds sent lower_filled lower_present
  rw [lowered_string document carried filled present]
  constructor
  · -- Asked under its lowered e-mail the row is refused, so it must be found as well.
    intro all_agree
    have both := all_agree (e.platform.lower text) finds sent
    rw [refused_iff, receipt_iff addressed referenced stored, sent, alone] at both
    obtain ⟨found, among, holds⟩ := both.mp ⟨lower_filled, lower_present, row, List.mem_singleton_self row, by
      rw [CheckoutRow.loweredEmail, document, reading.string members text carried, Option.getD_some]⟩
    obtain ⟨others, same, is_text⟩ := (holding_iff finds found).mp holds
    rw [List.mem_singleton.mp among, document] at same
    cases same
    rw [carried, Json.str.injEq] at is_text
    exact is_text.symm
  · intro lower email finds sent
    refine agree finds sent fun other among => ?_
    rw [alone, List.mem_singleton] at among
    rw [among, lowered_string document carried filled present]
    exact lower

end Agreement

section Deployment
open Mainnet (landed signature1 payer signatureText1 uuid1)

/-- `@>` between objects of strings. -/
def containsStrings : Json → Json → Bool
  | .obj members, .obj wanted => wanted.all fun member =>
      match member.2, lookup members member.1 with
      | .str text, .str stored => text = stored
      | _, _ => false
  | _, _ => false

def receipts : Environment := { environment with platform := emailPlatform, jsonbContains := containsStrings }

def paidFor : Service :=
  { world := { stored [] with core := { (stored []).core with chain := [landed signature1 []] } }, threads := [] }

def verification (email : String) : Request :=
  .checkout "203.0.113.7" ⟨.manualVerify ⟨.post, some ⟨"meetup", payer, signatureText1, emailOnly email⟩⟩, rfl⟩

-- A deposit verified under one e-mail, and whether it is found under another.
theorem verified_as (given : String) (check : Payknot.World → Bool)
    (runs : ((machine receipts).run (fun _ _ => true) (.arrive (verification given) ::
      List.replicate 9 (.step 0 { sound with text := some uuid1 })) paidFor).any (fun cfg =>
        (cfg.world.core.events.any fun event => event.id = 1 && event.slug = "meetup") &&
          check cfg.world.core) = true) :
    ∃ (cfg : Service) (event : EventRow), (machine receipts).Reaches anyStep paidFor cfg ∧
      event ∈ cfg.world.core.events ∧ event.id = 1 ∧ event.slug = "meetup" ∧ check cfg.world.core = true := by
  obtain ⟨cfg, run, done⟩ := run_meets (machine receipts) (fun _ _ => true) _ _ _ runs
  simp only [Bool.and_eq_true, List.any_eq_true, decide_eq_true_eq] at done
  obtain ⟨⟨event, stored, id, slug⟩, checked⟩ := done
  exact ⟨cfg, event, run.any, stored, id, slug, checked⟩

theorem paidFor_catalogued : Catalogued paidFor.world.core :=
  ⟨opening_catalogued.distinct, opening_catalogued.drawn⟩

theorem paidFor_addressed : Addressed paidFor.world.core := ⟨opening_addressed.distinct, opening_addressed.slugs⟩

theorem paidFor_referenced : Referenced paidFor.world.core := by
  unfold Referenced
  decide

theorem receipts_finds (email : String)
    (document : receipts.platform.jsonb (receipts.platform.marshalMap (emailOnly email)) =
      some (.obj [("email", .str email)])) : FindsEmail receipts email := by
  refine ⟨document, fun stored => ?_⟩
  change containsStrings stored (.obj [("email", .str email)]) = true ↔ _
  cases stored with
  | obj members =>
      cases carried : lookup members "email" <;> simp [containsStrings, carried, eq_comm]
  | _ => simp [containsStrings]

/-- A deposit under ann@example.com is refused, and its receipt found. -/
theorem refusal_receipt_agree_meetup :
    ∃ (cfg : Service) (event : EventRow), (machine receipts).Reaches anyStep paidFor cfg ∧
      event ∈ cfg.world.core.events ∧
      Refuses receipts.platform cfg.world.core
        (ensureParticipantEmailAvailable receipts.platform event.id (emailOnly Mainnet.email)) ∧
      Receipt receipts cfg.world event.slug Mainnet.email := by
  obtain ⟨cfg, event, run, stored, id, _, found⟩ := verified_as Mainnet.email
    (fun w => !(paidOthers w 1 none).isEmpty && (paidOthers w 1 none).all fun row =>
      spells Mainnet.email row.participantData) (by decide +kernel)
  simp only [Bool.and_eq_true, Bool.not_eq_true', List.isEmpty_eq_false_iff_exists_mem, List.all_eq_true] at found
  obtain ⟨⟨row, among⟩, all⟩ := found
  have text : refusedText receipts Mainnet.email = Mainnet.email := by decide +kernel
  have lower : receipts.platform.lower Mainnet.email = Mainnet.email := by decide +kernel
  have lowered : ∀ row ∈ paidOthers cfg.world.core event.id none, Lowered receipts row.participantData := by
    intro other member
    rw [id] at member
    exact (lowered_string (obj_of_spells (all other member)) rfl (by decide) (by decide)).mpr lower
  have agree := (refusal_receipt_agree rfl paidFor_catalogued paidFor_addressed paidFor_referenced
    emailPlatform_reads run stored).1 Mainnet.email (receipts_finds _ rfl) text lowered
  have refused : Refuses receipts.platform cfg.world.core
      (ensureParticipantEmailAvailable receipts.platform event.id (emailOnly Mainnet.email)) := by
    rw [refused_iff, text, id]
    refine ⟨by decide, by decide, row, among, ?_⟩
    rw [CheckoutRow.loweredEmail, obj_of_spells (all row among)]
    decide +kernel
  exact ⟨cfg, event, run, stored, refused, agree.mp refused⟩

/-- A deposit is stored under an e-mail with a capital letter; the page's lower-case e-mail is
refused, and has no receipt. -/
theorem refused_without_receipt :
    ∃ (cfg : Service) (event : EventRow), (machine receipts).Reaches anyStep paidFor cfg ∧
      event ∈ cfg.world.core.events ∧ Clean receipts.platform Mainnet.email ∧
      Refuses receipts.platform cfg.world.core
        (ensureParticipantEmailAvailable receipts.platform event.id (emailOnly Mainnet.email)) ∧
      ¬ Receipt receipts cfg.world event.slug Mainnet.email := by
  obtain ⟨cfg, event, run, stored, id, slug, found⟩ := verified_as "Ann@example.com"
    (fun w => ((paidOthers w 1 none).any fun row => row.loweredEmail receipts.platform = Mainnet.email) &&
      (paidOthers w 1 none).all fun row =>
        !containsStrings row.participantData (.obj [("email", .str Mainnet.email)])) (by decide +kernel)
  rw [Bool.and_eq_true, List.any_eq_true, List.all_eq_true] at found
  obtain ⟨⟨row, among, lowered⟩, absent⟩ := found
  have text : refusedText receipts Mainnet.email = Mainnet.email := by decide +kernel
  have referenced : Referenced cfg.world.core := run.invariant (fun cfg => Referenced cfg.world.core)
    paidFor_referenced fun _ _ _ held _ stepped => held.next stepped
  have addressed := (slugs_stored rfl paidFor_catalogued paidFor_addressed run).2.1
  refine ⟨cfg, event, run, stored, ⟨by decide +kernel, by decide +kernel, by decide +kernel⟩, ?_, ?_⟩
  · rw [refused_iff, text, id]
    exact ⟨by decide, by decide, row, among, of_decide_eq_true lowered⟩
  · rw [receipt_iff addressed referenced stored, id]
    rintro ⟨other, member, data, parsed, contains⟩
    have none_such := absent other member
    have document : data = .obj [("email", .str Mainnet.email)] := by
      have read : emailPlatform.jsonb (emailPlatform.marshalMap (emailOnly Mainnet.email)) =
          some (.obj [("email", .str Mainnet.email)]) := by rfl
      exact Option.some.inj (parsed.symm.trans read)
    rw [document] at contains
    rw [show containsStrings other.participantData (.obj [("email", .str Mainnet.email)]) = true from contains]
      at none_such
    cases none_such

end Deployment

end Payknot.Server
