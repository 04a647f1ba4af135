import Payknot.Finalisation

/-! What the creation of a session leaves in the cache, for every way its operations may
fail: an invoice that was refused is gone, one that was granted expires in twenty minutes. -/
namespace Payknot
open GoText Interleaving

def hashKey : Entry Reply → Option String
  | ⟨.redis (.hSet key _), .ok _⟩ => some key
  | _ => none

def creationFails : Entry Reply → Bool
  | ⟨.redis (.expire _ _), .error _⟩ | ⟨.sql (.insertSession _), .error _⟩ => true
  | _ => false

def replayedContent : Entry Reply → Option Content
  | ⟨.sql (.loadIdempotent _ _ _), .ok response⟩ => response
  | _ => none

def Content.reference : Content → Option String
  | .invoice reference _ _ => some reference
  | .session response => some response.reference
  | _ => none

/-- The invoice of the reference can be paid for another twenty minutes. -/
def Payable (w : World) (reference : String) : Prop :=
  ∃ cached ∈ w.cache, cached.key = redisKey reference ∧ cached.deadline = some (w.now + 20 * minute)

def PayableContent (w : World) (content : Content) : Prop :=
  ∃ reference, content.reference = some reference ∧ Payable w reference

/-- A session that was granted is payable, and one that was refused has left no hash. -/
def LeavesNoStray (answer : Answer) (after : World) (later : Log Reply) : Prop :=
  match answer with
  | .responded 200 content => PayableContent after content
  | _ => ∀ key ∈ later.filterMap hashKey, ∀ cached ∈ after.cache, cached.key ≠ key

/-- Neither the expiry nor the session's row failed, and an answer on record is payable
still. -/
def Smooth (w : World) (later : Log Reply) : Prop :=
  later.any creationFails = false ∧ ∀ response ∈ later.filterMap replayedContent, PayableContent w response

/-- Every hash in the cache belongs to an identifier drawn earlier. -/
def HashesMinted (w : World) : Prop :=
  ∀ cached ∈ w.cache, ∀ reference, cached.key = redisKey reference → reference ∈ w.minted

section Kept
variable {p : Platform}

/-- The cache and the clock stand still, and identifiers are only drawn. -/
structure Kept (w after : World) : Prop where
  cache : after.cache = w.cache
  now : after.now = w.now
  minted : w.minted ⊆ after.minted

theorem Kept.refl (w : World) : Kept w w := ⟨rfl, rfl, List.Subset.refl _⟩

theorem Kept.trans {w middle after : World} (first : Kept w middle) (rest : Kept middle after) : Kept w after :=
  ⟨rest.cache.trans first.cache, rest.now.trans first.now, List.Subset.trans first.minted rest.minted⟩

theorem Kept.fresh {w middle : World} (kept : Kept w middle) (minted : HashesMinted w) {reference : String}
    (unused : reference ∉ middle.minted) : ∀ cached ∈ middle.cache, cached.key ≠ redisKey reference := by
  intro cached member same
  rw [kept.cache] at member
  exact unused (kept.minted (minted cached member reference same))

/-- Operations beside the cache, other than those an outcome hangs on. -/
def Op.aside : Op → Bool
  | .redis _ | .sql (.insertSession _) | .sql (.loadIdempotent _ _ _) => false
  | _ => true

theorem performs_kept {op : Op} {w after : World} {reply : Reply op} (uncached : ∀ command, op ≠ .redis command)
    (performed : performs p op w reply after) : Kept w after := by
  obtain ⟨choice, _, executed⟩ := performed
  change exec p choice op w = some (reply, after) at executed
  refine ⟨?_, exec_now executed, ?_⟩
  · rcases exec_cache executed with same | ⟨_, _, cached, _⟩ | ⟨_, _, cached, _⟩ | ⟨_, cached, _⟩
    · exact same
    · exact absurd cached (uncached _)
    · exact absurd cached (uncached _)
    · exact absurd cached (uncached _)
  · rcases exec_minted executed with same | ⟨_, _, _, drawn⟩
    · rw [same]
      exact List.Subset.refl _
    · rw [drawn]
      exact List.subset_cons_self _ _

theorem performs_aside {op : Op} {w after : World} {reply : Reply op} (aside : op.aside = true)
    (performed : performs p op w reply after) : Kept w after := by
  refine performs_kept ?_ performed
  rintro command rfl
  cases aside

structure Unmarked (log : Log Reply) : Prop where
  hashes : log.filterMap hashKey = []
  fine : log.any creationFails = false
  unread : log.filterMap replayedContent = []

theorem Unmarked.nil : Unmarked [] := ⟨rfl, rfl, rfl⟩

theorem aside_marks {entry : Entry Reply} (aside : entry.op.aside = true) :
    hashKey entry = none ∧ creationFails entry = false ∧ replayedContent entry = none := by
  obtain ⟨op, reply⟩ := entry
  cases op with
  | sql statement =>
      cases statement with
      | insertSession | loadIdempotent => cases aside
      | _ => exact ⟨rfl, rfl, rfl⟩
  | redis command => cases aside
  | _ => exact ⟨rfl, rfl, rfl⟩

theorem Unmarked.cons {log : Log Reply} (unmarked : Unmarked log) {entry : Entry Reply} (hashes : hashKey entry = none)
    (fine : creationFails entry = false) (unread : replayedContent entry = none) : Unmarked (entry :: log) := by
  refine ⟨?_, ?_, ?_⟩
  · rw [List.filterMap_cons_none hashes, unmarked.hashes]
  · rw [List.any_cons, fine, unmarked.fine, Bool.or_self]
  · rw [List.filterMap_cons_none unread, unmarked.unread]

theorem Unmarked.aside {log : Log Reply} (unmarked : Unmarked log) (entry : Entry Reply)
    (aside : entry.op.aside = true) : Unmarked (entry :: log) :=
  unmarked.cons (aside_marks aside).1 (aside_marks aside).2.1 (aside_marks aside).2.2

theorem unmarked_of_aside {seen : Log Reply} (aside : ∀ entry ∈ seen, entry.op.aside = true) : Unmarked seen := by
  induction seen with
  | nil => exact .nil
  | cons entry rest ih =>
      exact (ih fun other member => aside other (List.mem_cons_of_mem _ member)).aside _ (aside entry List.mem_cons_self)

theorem Unmarked.append {seen log : Log Reply} (newer : Unmarked seen) (older : Unmarked log) :
    Unmarked (seen ++ log) := by
  refine ⟨?_, ?_, ?_⟩
  · rw [List.filterMap_append, newer.hashes, older.hashes, List.append_nil]
  · rw [List.any_append, newer.fine, older.fine, Bool.or_self]
  · rw [List.filterMap_append, newer.unread, older.unread, List.append_nil]

end Kept

section Invoice
variable {p : Platform} {w after : World} {key : String}

def Undated (w : World) (key : String) : Prop :=
  (∃ cached ∈ w.cache, cached.key = key) ∧ ∀ cached ∈ w.cache, cached.key = key → cached.deadline = none

theorem performs_hSet {hash : InvoiceHash} {reply : Except Fault Unit}
    (unused : ∀ cached ∈ w.cache, cached.key ≠ key) (performed : performs p (.redis (.hSet key hash)) w reply after) :
    (∃ fault, reply = .error fault ∧ after = w) ∨ reply = .ok () ∧ Undated after key := by
  obtain ⟨choice, _, executed⟩ := performed
  change exec p choice (.redis (.hSet key hash)) w = some (reply, after) at executed
  rcases exec_redis executed with failed | ⟨value, same, ran⟩
  · exact .inl failed
  · have undated : w.cache.find? (·.key = key) = none := by
      simpa using unused
    cases ran
    refine .inr ⟨same, ⟨_, List.mem_cons_self, rfl⟩, fun cached member is_key => ?_⟩
    rcases List.mem_cons.mp member with rfl | old
    · simp [undated]
    · exact absurd is_key (unused cached (List.mem_of_mem_filter old))

theorem performs_expire {ttl : Time} {reply : Except Fault Unit} (undated : Undated w key)
    (performed : performs p (.redis (.expire key ttl)) w reply after) :
    (∃ fault, reply = .error fault ∧ after = w) ∨ reply = .ok () ∧ after.now = w.now ∧
      ∃ cached ∈ after.cache, cached.key = key ∧ cached.deadline = some (w.now + ttl) := by
  obtain ⟨choice, _, executed⟩ := performed
  change exec p choice (.redis (.expire key ttl)) w = some (reply, after) at executed
  rcases exec_redis executed with failed | ⟨value, same, ran⟩
  · exact .inl failed
  · obtain ⟨cached, member, is_key⟩ := undated.1
    cases ran
    refine .inr ⟨same, rfl, { cached with deadline := some (w.now + ttl) }, ?_, is_key, rfl⟩
    refine List.mem_map.mpr ⟨cached, member, ?_⟩
    rw [if_pos (by simpa using is_key)]

theorem Undated.not_payable {reference : String} (undated : Undated w (redisKey reference)) : ¬ Payable w reference := by
  rintro ⟨cached, member, is_key, dated⟩
  rw [undated.2 cached member is_key] at dated
  cases dated

/-- The outcome of a creation from `w` is as clean as its failures let it be. -/
def Exact (w : World) (answer : Answer) (after : World) (later : Log Reply) : Prop :=
  LeavesNoStray answer after later ↔ Smooth w later

theorem Unmarked.smooth {log : Log Reply} (unmarked : Unmarked log) : Smooth w log := by
  refine ⟨unmarked.fine, ?_⟩
  rw [unmarked.unread]
  rintro _ ⟨⟩

theorem exact_refused {text : String} {status : Nat} {log : Log Reply} (unmarked : Unmarked log)
    (refused : status ≠ 200) : Exact w (httpError text status) after log := by
  refine iff_of_true ?_ unmarked.smooth
  unfold LeavesNoStray httpError
  split
  · next same =>
    cases same
    exact absurd rfl refused
  · rw [unmarked.hashes]
    rintro _ ⟨⟩

-- A refusal while the hash is still there, after a failure.
theorem exact_stray {text : String} {status : Nat} {log : Log Reply} (refused : status ≠ 200)
    (hashed : key ∈ log.filterMap hashKey) (stored : ∃ cached ∈ after.cache, cached.key = key)
    (failed : log.any creationFails = true) : Exact w (httpError text status) after log := by
  refine iff_of_false ?_ fun smooth => ?_
  · unfold LeavesNoStray httpError
    split
    · next same =>
      cases same
      exact absurd rfl refused
    · obtain ⟨cached, member, is_key⟩ := stored
      exact fun gone => gone key hashed cached member is_key
  · have fine := smooth.1
    rw [failed] at fine
    cases fine

theorem exact_granted {content : Content} {reference : String} {log : Log Reply} (fine : log.any creationFails = false)
    (unread : log.filterMap replayedContent = []) (same : content.reference = some reference)
    (payable : Payable after reference) : Exact w (.responded 200 content) after log := by
  refine iff_of_true ⟨reference, same, payable⟩ ⟨fine, ?_⟩
  rw [unread]
  rintro _ ⟨⟩

end Invoice

section Handlers
variable {p : Platform} {start w : World} {log : Log Reply}

theorem tracks_invoice (minted : HashesMinted start) (kept : Kept start w) (unmarked : Unmarked log) (event : EventRow)
    (walletAddress paymentMethod : String) (data : Option Object) :
    (createCheckoutInvoice.invoice p event walletAddress paymentMethod data).Tracks (performs p) (Exact start) w log := by
  unfold createCheckoutInvoice.invoice newUUID redis
  rw [Program.tracks_perform_bind]
  intro reference drawn performed
  have fresh : ∀ cached ∈ drawn.cache, cached.key ≠ redisKey reference := by
    obtain ⟨choice, _, executed⟩ := performed
    obtain ⟨unused, _, _, rfl⟩ := exec_newUUID executed
    exact kept.fresh minted unused
  rw [Program.tracks_perform_bind]
  intro reply hashed performed
  rcases performs_hSet fresh performed with ⟨fault, rfl, rfl⟩ | ⟨rfl, undated⟩
  · rw [Program.tracks_pure]
    exact exact_refused ((unmarked.aside _ rfl).cons rfl rfl rfl) (by decide)
  · dsimp only
    rw [Program.tracks_perform_bind]
    intro reply dated performed
    rcases performs_expire undated performed with ⟨fault, rfl, rfl⟩ | ⟨rfl, now, payable⟩
    · rw [Program.tracks_pure]
      exact exact_stray (by decide) (by simp [hashKey]) undated.1 rfl
    · rw [Program.tracks_pure]
      have in_time : Payable dated reference := by
        rw [Payable, now]
        exact payable
      have calm := unmarked.aside ⟨.newUUID, reference⟩ rfl
      exact exact_granted calm.fine calm.unread rfl in_time

theorem aside_remember (ownerEmail idemKey endpoint : String) (payload : Content) (log : Log Reply) :
    (remember ownerEmail idemKey endpoint payload).Along (fun _ op => op.aside = true) (fun _ _ => True) log := by
  unfold remember saveIdempotentResponse
  split
  · split
    · simp
    · rw [sql, Program.along_perform_bind]
      exact ⟨rfl, by simp⟩
  · simp

theorem aside_emitPaymentWebhook (event : String) (payload : List (String × String)) (log : Log Reply) :
    (emitPaymentWebhook p event payload).Along (fun _ op => op.aside = true) (fun _ _ => True) log := by
  unfold emitPaymentWebhook
  split
  · simp
  · rw [timeNow, Program.along_perform_bind]
    simp [Op.aside, Program.perform]

-- What a program beside the cache leaves behind.
theorem tracks_aside {Result : Type} {program : Handler Result}
    (aside : program.Along (fun _ op => op.aside = true) (fun _ _ => True) log) (w : World) :
    program.Tracks (performs p) (fun _ after later => Kept w after ∧ ∃ seen, later = seen ++ log ∧ Unmarked seen)
      w log := by
  refine (aside.tracks Kept Kept.refl (fun first rest => first.trans rest) ?_).mono ?_
  · exact fun op w reply after beside performed => performs_aside beside performed
  rintro _ after _ ⟨kept, _, seen, rfl, beside⟩
  exact ⟨kept, seen, rfl, unmarked_of_aside beside⟩

-- The last operations of a session that is stored stay beside the cache.
theorem tracks_granted {post : Answer → World → Log Reply → Prop} {answer : Answer} (ownerEmail idemKey endpoint event : String)
    (payload : Content) (told : List (String × String))
    (held : ∀ after seen, Kept w after → Unmarked seen → post answer after (seen ++ log)) :
    (do
      remember ownerEmail idemKey endpoint payload
      emitPaymentWebhook p event told
      return answer : Handler Answer).Tracks (performs p) post w log := by
  refine (tracks_aside (aside_remember _ _ _ _ _) _).sequence ?_
  rintro _ noted _ ⟨noting, seen, rfl, calm⟩
  refine (tracks_aside (aside_emitPaymentWebhook _ _ _) _).sequence ?_
  rintro _ after _ ⟨telling, newer, rfl, calm'⟩
  rw [Program.tracks_pure, ← List.append_assoc]
  exact held after _ (noting.trans telling) (calm'.append calm)

theorem tracks_session (minted : HashesMinted start) (kept : Kept start w) (unmarked : Unmarked log) (event : EventRow)
    (ownerEmail idemKey walletAddress paymentMethod : String) (data : Option Object) :
    (v1CreatePaymentSession.session p event ownerEmail idemKey walletAddress paymentMethod data).Tracks (performs p)
      (Exact start) w log := by
  unfold v1CreatePaymentSession.session newUUID timeNow redis
  rw [Program.tracks_perform_bind]
  intro sessionID identified performed
  have kept := kept.trans (performs_aside rfl performed)
  rw [Program.tracks_perform_bind]
  intro reference drawn performed
  have fresh : ∀ cached ∈ drawn.cache, cached.key ≠ redisKey reference := by
    obtain ⟨choice, _, executed⟩ := performed
    obtain ⟨unused, _, _, rfl⟩ := exec_newUUID executed
    exact kept.fresh minted unused
  rw [Program.tracks_perform_bind]
  intro now timed performed
  rw [← (performs_aside rfl performed).cache] at fresh
  have calm := ((unmarked.aside ⟨.newUUID, sessionID⟩ rfl).aside ⟨.newUUID, reference⟩ rfl).aside ⟨.now, now⟩ rfl
  dsimp only
  rw [Program.tracks_perform_bind]
  intro reply hashed performed
  rcases performs_hSet fresh performed with ⟨fault, rfl, rfl⟩ | ⟨rfl, undated⟩
  · rw [Program.tracks_pure]
    exact exact_refused (calm.cons rfl rfl rfl) (by decide)
  · dsimp only
    rw [Program.tracks_perform_bind]
    intro expiry dated expiring
    unfold sql
    rw [Program.tracks_perform_bind]
    intro reply inserted performed
    have inserting : Kept dated inserted := performs_kept (by rintro _ ⟨⟩) performed
    rcases performs_expire undated expiring with ⟨fault, rfl, rfl⟩ | ⟨rfl, now, cached, member, is_key, in_time⟩
    · have undated : Undated inserted (redisKey reference) := by
        unfold Undated
        rw [inserting.cache]
        exact undated
      cases reply with
      | error refusal =>
          rw [Program.tracks_pure]
          exact exact_stray (by decide) (by simp [hashKey]) undated.1 rfl
      | ok _ =>
          refine tracks_granted _ _ _ _ _ _ fun after seen kept _ => ?_
          refine iff_of_false ?_ fun smooth => ?_
          · rintro ⟨_, ⟨⟩, payable⟩
            unfold Undated at undated
            rw [← kept.cache] at undated
            exact Undated.not_payable undated payable
          · have fine := smooth.1
            rw [List.any_append, List.any_cons, List.any_cons] at fine
            simp [creationFails] at fine
    · have stored : ∃ cached ∈ inserted.cache, cached.key = redisKey reference := by
        rw [inserting.cache]
        exact ⟨cached, member, is_key⟩
      cases reply with
      | error refusal =>
          rw [Program.tracks_pure]
          exact exact_stray (by decide) (by simp [hashKey]) stored rfl
      | ok _ =>
          refine tracks_granted _ _ _ _ _ _ fun after seen kept calm' => ?_
          have settled := calm'.append calm
          refine exact_granted ?_ ?_ rfl ⟨cached, ?_, is_key, ?_⟩
          · have fine := settled.fine
            rw [List.any_append] at fine ⊢
            exact fine
          · have unread := settled.unread
            rw [List.filterMap_append] at unread ⊢
            exact unread
          · rw [kept.cache, inserting.cache]
            exact member
          · rw [kept.now, inserting.now, now]
            exact in_time

theorem aside_checkEmail (eventID : Int64) (otherThan : Option String) (data : Option Object) (log : Log Reply) :
    (checkEmail p eventID otherThan data).Along (fun _ op => op.aside = true) (fun _ _ => True) log := by
  unfold checkEmail sql
  dsimp only
  split
  · simp
  · rw [Program.along_perform_bind]
    refine ⟨rfl, fun reply => ?_⟩
    rcases reply with _ | _ | _ <;> simp

theorem tracks_refused {text : String} {status : Nat} (unmarked : Unmarked log) (refused : status ≠ 200) :
    (return httpError text status : Handler Answer).Tracks (performs p) (Exact start) w log := by
  rw [Program.tracks_pure]
  exact exact_refused unmarked refused

theorem tracks_createInvoice (minted : HashesMinted start) (r : HttpRequest CreateCheckoutInvoiceRequest) :
    (createCheckoutInvoice p r).Tracks (performs p) (Exact start) start [] := by
  unfold createCheckoutInvoice sql timeNow
  split
  · exact tracks_refused .nil (by decide)
  · split
    · next req _ =>
      dsimp only
      split
      · exact tracks_refused .nil (by decide)
      · rw [Program.tracks_perform_bind]
        intro reply found performed
        have finding := performs_aside rfl performed
        have calm := Unmarked.nil.aside ⟨.sql (.selectActiveEventBySlug (trimSpace req.slug)), reply⟩ rfl
        rcases reply with fault | (_ | event)
        · exact tracks_refused calm (by decide)
        · exact tracks_refused calm (by decide)
        · dsimp only
          rw [Program.tracks_perform_bind]
          intro now timed performed
          have timing := finding.trans (performs_aside rfl performed)
          have calm := calm.aside ⟨.now, now⟩ rfl
          split
          · exact tracks_refused calm (by decide)
          · split
            · exact tracks_refused calm (by decide)
            · refine (tracks_aside (aside_checkEmail _ _ _ _) _).sequence ?_
              rintro available checked _ ⟨checking, seen, rfl, calm'⟩
              have kept := timing.trans checking
              have unmarked := calm'.append calm
              cases available with
              | error text => exact tracks_refused unmarked (by decide)
              | ok _ =>
                  dsimp only
                  split
                  · split
                    · exact tracks_refused unmarked (by decide)
                    · split
                      · exact tracks_refused unmarked (by decide)
                      · exact tracks_invoice minted kept unmarked _ _ _ _
                  · split
                    · split
                      · exact tracks_refused unmarked (by decide)
                      · exact tracks_invoice minted kept unmarked _ _ _ _
                    · exact tracks_refused unmarked (by decide)
    · exact tracks_refused .nil (by decide)

theorem aside_selectSessionEvent (eventID : Int64) (slug : String) (log : Log Reply) :
    (selectSessionEvent eventID slug).Along (fun _ op => op.aside = true) (fun _ _ => True) log := by
  unfold selectSessionEvent
  split <;> simp [sql, Program.perform, Op.aside]

-- An answer on record is given as it is; nothing is created.
theorem tracks_replayed (ownerEmail idemKey endpoint : String) (w : World) :
    (replayed ownerEmail idemKey endpoint).Tracks (performs p) (fun response after later =>
      after = w ∧ match response with
        | some content => Exact w (.responded 200 content) after later
        | none => Unmarked later) w [] := by
  unfold replayed loadIdempotentResponse sql
  split
  · split
    · rw [Program.tracks_pure]
      exact ⟨rfl, .nil⟩
    · rw [Program.tracks_perform_bind]
      intro reply after performed
      obtain rfl := performs_looks rfl performed
      rcases reply with fault | (_ | content)
      · rw [Program.tracks_pure]
        exact ⟨rfl, Unmarked.nil.cons rfl rfl rfl⟩
      · rw [Program.tracks_pure]
        exact ⟨rfl, Unmarked.nil.cons rfl rfl rfl⟩
      · rw [Program.tracks_pure]
        refine ⟨rfl, ?_⟩
        simp [Exact, LeavesNoStray, Smooth, creationFails, replayedContent]
  · rw [Program.tracks_pure]
    exact ⟨rfl, .nil⟩

theorem tracks_v1Create (minted : HashesMinted start) (r : V1CreateRequest) :
    (v1CreatePaymentSession p r).Tracks (performs p) (Exact start) start [] := by
  unfold v1CreatePaymentSession timeNow
  split
  · exact tracks_refused .nil (by decide)
  · split
    · next req _ =>
      refine (tracks_replayed _ _ _ start).sequence ?_
      rintro response _ asked ⟨rfl, outcome⟩
      cases response with
      | some content =>
          rw [Program.tracks_pure]
          exact outcome
      | none =>
          refine (tracks_aside (aside_selectSessionEvent _ _ _) _).sequence ?_
          rintro selected found _ ⟨finding, seen, rfl, calm⟩
          have calm := calm.append outcome
          rcases selected with fault | (_ | event)
          · exact tracks_refused calm (by decide)
          · exact tracks_refused calm (by decide)
          · dsimp only
            rw [Program.tracks_perform_bind]
            intro now timed performed
            have timing := finding.trans (performs_aside rfl performed)
            have calm := calm.aside ⟨.now, now⟩ rfl
            split
            · exact tracks_refused calm (by decide)
            · split
              · exact tracks_refused calm (by decide)
              · refine (tracks_aside (aside_checkEmail _ _ _ _) _).sequence ?_
                rintro available checked _ ⟨checking, newer, rfl, calm'⟩
                have kept := timing.trans checking
                have unmarked := calm'.append calm
                cases available with
                | error text => exact tracks_refused unmarked (by decide)
                | ok _ =>
                    dsimp only
                    split
                    · exact tracks_refused unmarked (by decide)
                    · split
                      · exact tracks_refused unmarked (by decide)
                      · split
                        · exact tracks_refused unmarked (by decide)
                        · split
                          · exact tracks_refused unmarked (by decide)
                          · exact tracks_session minted kept unmarked _ _ _ _ _ _
    · exact tracks_refused .nil (by decide)

/-- A creation, whatever fails in it, grants an invoice that is dropped in twenty minutes or
refuses and leaves none, exactly when neither its expiry nor its row failed and an answer on
record is payable still. -/
theorem creation_exact {request : Request} {answer : Answer} {after : World} {later : Log Reply}
    (creates : request.opensSession = true) (minted : HashesMinted w)
    (run : Traces (performs p) (handler p request) w [] answer after later) :
    LeavesNoStray answer after later ↔ Smooth w later := by
  cases request with
  | createInvoice r => exact (tracks_createInvoice minted r).traces run
  | v1Create r => exact (tracks_v1Create minted r).traces run
  | _ => cases creates

end Handlers

section Meetup
open Mainnet

def fine (uuid : String) : Choice := ⟨none, uuid⟩
def down : Choice := ⟨some ⟨"i/o timeout"⟩, ""⟩

theorem opening_minted : HashesMinted (opening []).world := by
  rintro _ ⟨⟩

def refusedUndated : Option (Answer × World × Log Reply) → Bool
  | some (.responded 500 (.message _), _, later) => later.any creationFails
  | _ => false

def grantedUndated : Option (Answer × World × Log Reply) → Bool
  | some (.responded 200 _, _, later) => later.any creationFails
  | _ => false

-- Both creations while Redis refuses the expiry: one is refused, one is granted.
theorem undated_creations :
    (∃ text after later, Traces (performs platform) (handler platform createInvoice) (opening []).world []
      (httpError text 500) after later ∧ later.any creationFails = true) ∧
    (∃ content after later, Traces (performs platform) (handler platform (create "")) (opening []).world []
      (.responded 200 content) after later ∧ later.any creationFails = true) := by
  have refused : refusedUndated ((handler platform createInvoice).playLogged (exec platform)
      (List.replicate 5 (fine uuid1) ++ [down]) (opening []).world []) = true := by decide +kernel
  have granted : grantedUndated ((handler platform (create "")).playLogged (exec platform)
      (List.replicate 4 (fine uuid3) ++ List.replicate 3 (fine uuid1) ++ [down, fine ""]) (opening []).world []) =
      true := by decide +kernel
  constructor
  · unfold refusedUndated at refused
    split at refused
    · next text after later played =>
      exact ⟨text, after, later, Program.playLogged_traces (machine platform) (fun _ _ => trivial) played, refused⟩
    · cases refused
  · unfold grantedUndated at granted
    split at granted
    · next content after later played =>
      exact ⟨content, after, later, Program.playLogged_traces (machine platform) (fun _ _ => trivial) played, granted⟩
    · cases granted

/-- A creation in which nothing fails. -/
theorem creation_exact_meetup : ∃ answer after later,
    Traces (performs platform) (handler platform createInvoice) (opening []).world [] answer after later ∧
    LeavesNoStray answer after later := by
  have smooth : (match (handler platform createInvoice).playLogged (exec platform)
      (List.replicate 6 (fine uuid1)) (opening []).world [] with
    | some (_, _, later) => !later.any creationFails && (later.filterMap replayedContent).isEmpty
    | none => false) = true := by decide +kernel
  split at smooth
  · next answer after later played =>
    simp only [Bool.and_eq_true, Bool.not_eq_true', List.isEmpty_iff] at smooth
    have run : Traces (performs platform) (handler platform createInvoice) (opening []).world [] answer after later :=
      Program.playLogged_traces (machine platform) (fun _ _ => trivial) played
    refine ⟨answer, after, later, run, (creation_exact rfl opening_minted run).mpr ⟨smooth.1, ?_⟩⟩
    rw [smooth.2]
    rintro _ ⟨⟩
  · cases smooth

/-- A refused creation leaves its hash, and a granted one a hash that never expires. -/
theorem stray_invoices :
    (∃ text after later, Traces (performs platform) (handler platform createInvoice) (opening []).world []
      (httpError text 500) after later ∧ ¬ LeavesNoStray (httpError text 500) after later) ∧
    (∃ content after later, Traces (performs platform) (handler platform (create "")) (opening []).world []
      (.responded 200 content) after later ∧ ¬ LeavesNoStray (.responded 200 content) after later) := by
  obtain ⟨⟨text, after, later, refused, failed⟩, ⟨content, after', later', granted, failed'⟩⟩ := undated_creations
  refine ⟨⟨text, after, later, refused, fun clean => ?_⟩, ⟨content, after', later', granted, fun clean => ?_⟩⟩
  · have smooth := ((tracks_createInvoice opening_minted _).traces refused).mp clean
    rw [smooth.1] at failed
    cases failed
  · have smooth := ((tracks_v1Create opening_minted _).traces granted).mp clean
    rw [smooth.1] at failed'
    cases failed'

end Meetup

end Payknot
