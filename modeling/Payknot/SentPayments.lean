import Payknot.CheckoutPage

/-! What becomes of a payment the page has sent. The failure path of the wallet payment
looks at the sent signature before it cancels; leaving the page and going back look at the
session that is shown, which does not hold it. -/
namespace Payknot.CheckoutPage
open GoText Interleaving Machine

variable {slug : String} {request : Request} {log : Log Reply}

def Cancels (session : Created) (call : Call) : Prop :=
  call = .cancel session.reference ∨ (session.sessionId ≠ "" ∧ call = .cancelSession session.sessionId)

def Created.Overlaps (first second : Created) : Prop := ∃ call, Cancels first call ∧ Cancels second call

def Hooks.shown (hooks : Hooks) : Created := ⟨hooks.activeSessionId, hooks.reference⟩

inductive Hands : Entry Reply → Created → Prop where
  | session (idempotencyKey order created) :
      Hands ⟨.fetch (.createSession idempotencyKey order), .ok created⟩ created
  | invoice (order reference) : Hands ⟨.fetch (.createInvoice order), .ok reference⟩ ⟨"", reference⟩

/-- The participant has agreed to cancel the session a render shows. -/
def Agreed (log : Log Reply) (hooks : Hooks) : Prop :=
  [(⟨.confirmDialog, true⟩ : Entry Reply), ⟨.closure, hooks⟩] <:+ log

def Bound (log : Log Reply) (session : Created) : Prop :=
  (∃ entry ∈ log, Hands entry session) ∨ ∃ hooks, Agreed log hooks ∧ session = hooks.shown

def Sent (log : Log Reply) (session : Created) : Prop :=
  ∃ signature, signature ≠ "" ∧ log.Saw (.sendTransaction session) (.ok signature)

def SentNothing (log : Log Reply) : Prop := ∀ session, ¬ Sent log session

def Issues (log : Log Reply) : Op → Prop
  | .confirmDialog => ∃ hooks, log = [⟨.closure, hooks⟩]
  | .fetch call => ∀ session, Cancels session call →
      SentNothing log ∧ ∃ bound, Bound log bound ∧ Cancels bound call
  | _ => True

section Handlers

theorem Bound.mono {later : Log Reply} {session : Created} (bound : Bound log session)
    (grown : log <:+ later) : Bound later session := by
  rcases bound with ⟨entry, member, hands⟩ | ⟨hooks, agreed, shown⟩
  · exact .inl ⟨entry, grown.subset member, hands⟩
  · exact .inr ⟨hooks, agreed.trans grown, shown⟩

theorem Sent.mono {later : Log Reply} {session : Created} (sent : Sent log session)
    (grown : log <:+ later) : Sent later session := by
  obtain ⟨signature, some_signature, saw⟩ := sent
  exact ⟨signature, some_signature, saw.mono grown⟩

-- A call that cancels nothing may always be made.
theorem issues_fetch {call : Call} (harmless : ∀ session, ¬ Cancels session call) :
    Issues log (.fetch call) := fun session cancels => absurd cancels (harmless session)

theorem SentNothing.cons (nothing : SentNothing log) (entry : Entry Reply)
    (quiet : ∀ session, entry.op ≠ .sendTransaction session) : SentNothing (entry :: log) := by
  rintro session ⟨signature, some_signature, saw⟩
  rcases List.mem_cons.mp saw with here | earlier
  · cases here
    exact quiet session rfl
  · exact nothing session ⟨signature, some_signature, earlier⟩

theorem along_createInvoice (walletAddress : String) (participantData : List (String × String))
    (method : PaymentMethod) (nothing : SentNothing log) :
    (createInvoice slug walletAddress participantData method).Along Issues
      (fun after result => SentNothing after ∧ ∀ created, result = .ok created → Bound after created)
      log := by
  unfold createInvoice perform fetch
  rw [Program.along_perform_bind]
  refine ⟨trivial, fun now => ?_⟩
  rw [Program.along_perform_bind]
  refine ⟨issues_fetch (by simp [Cancels]), fun created => ?_⟩
  have nothing := (nothing.cons ⟨.dateNow, now⟩ (by simp)).cons ⟨.fetch _, created⟩ (by simp)
  split
  · next created =>
    rw [Program.along_pure]
    refine ⟨nothing, ?_⟩
    rintro _ ⟨⟩
    exact .inl ⟨_, List.mem_cons_self, .session _ _ _⟩
  · rw [Program.along_pure]
    exact ⟨nothing, by simp⟩
  · rw [Program.along_perform_bind]
    refine ⟨issues_fetch (by simp [Cancels]), fun reference => ?_⟩
    have nothing := nothing.cons ⟨.fetch _, reference⟩ (by simp)
    split
    · rw [Program.along_pure]
      refine ⟨nothing, ?_⟩
      rintro _ ⟨⟩
      exact .inl ⟨_, List.mem_cons_self, .invoice _ _⟩
    · rw [Program.along_pure]
      exact ⟨nothing, by simp⟩
    · rw [Program.along_pure]
      exact ⟨nothing, by simp⟩

/-- The wallet payment has this session, and has sent it unless the signature is empty. -/
structure Progress (log : Log Reply) (created : Created) (signature : String) : Prop where
  nothing : signature = "" → SentNothing log
  bound : Bound log created

theorem Progress.cons {created : Created} {signature : String} (progress : Progress log created signature)
    (entry : Entry Reply) (quiet : ∀ session, entry.op ≠ .sendTransaction session) :
    Progress (entry :: log) created signature where
  nothing := fun unsigned => (progress.nothing unsigned).cons entry quiet
  bound := progress.bound.mono (List.suffix_cons _ _)

theorem Progress.send {created : Created} (progress : Progress log created "")
    (reply : Except String String) :
    Progress (⟨.sendTransaction created, reply⟩ :: log) created
      (match reply with | .ok signature => signature | .error _ => "") where
  nothing := by
    rintro unsigned session ⟨signature, some_signature, saw⟩
    rcases List.mem_cons.mp saw with here | earlier
    · cases here
      exact some_signature unsigned
    · exact progress.nothing rfl session ⟨signature, some_signature, earlier⟩
  bound := progress.bound.mono (List.suffix_cons _ _)

theorem along_submit {created : Created} (signature : String) (progress : Progress log created signature) :
    (submit created signature).Along Issues (fun after _ => Progress after created signature) log := by
  unfold submit fetch
  split
  · rw [Program.along_perform_bind]
    refine ⟨issues_fetch (by simp [Cancels]), fun answered => ?_⟩
    have progress := progress.cons ⟨.fetch _, answered⟩ (by simp)
    split <;> rw [Program.along_pure] <;> exact progress
  · rw [Program.along_perform_bind]
    refine ⟨issues_fetch (by simp [Cancels]), fun answered => ?_⟩
    have progress := progress.cons ⟨.fetch _, answered⟩ (by simp)
    split <;> rw [Program.along_pure] <;> exact progress

theorem along_payFromWallet (publicKey : String) (participantData : List (String × String)) :
    (payFromWallet slug publicKey participantData).Along Issues
      (fun after attempt => attempt.created.reference ≠ "" →
        Progress after attempt.created attempt.sentSignature) [] := by
  unfold payFromWallet
  refine (along_createInvoice publicKey participantData .wallet (by simp [SentNothing, Sent, Log.Saw])).sequence
    fun log result _ ⟨nothing, bound⟩ => ?_
  cases result with
  | error text =>
      rw [Program.along_pure]
      exact fun some_reference => absurd rfl some_reference
  | ok created =>
      have progress : Progress log created "" := ⟨fun _ => nothing, bound created rfl⟩
      unfold perform
      dsimp only
      rw [Program.along_perform_bind]
      refine ⟨trivial, fun _ => ?_⟩
      rw [Program.along_perform_bind]
      refine ⟨trivial, fun _ => ?_⟩
      rw [Program.along_perform_bind]
      refine ⟨trivial, fun transfer => ?_⟩
      have progress := ((progress.cons ⟨.showSession created, ()⟩ (by simp)).cons
        ⟨.persistPending created "", ()⟩ (by simp)).cons ⟨.createUsdcTransfer created, transfer⟩ (by simp)
      split
      · rw [Program.along_pure]
        exact fun _ => progress
      · rw [Program.along_perform_bind]
        refine ⟨trivial, fun sent => ?_⟩
        have progress := progress.send sent
        split
        · rw [Program.along_pure]
          exact fun _ => progress
        · next signature =>
          rw [Program.along_perform_bind]
          refine ⟨trivial, fun _ => ?_⟩
          rw [Program.along_perform_bind]
          refine ⟨trivial, fun confirmed => ?_⟩
          have progress := (progress.cons ⟨.persistPending created signature, ()⟩ (by simp)).cons
            ⟨.confirmTransaction signature, confirmed⟩ (by simp)
          split
          · refine (along_submit signature progress).sequence fun log paid _ progress => ?_
            split
            · rw [Program.along_perform_bind]
              refine ⟨trivial, fun _ => ?_⟩
              rw [Program.along_pure]
              exact fun _ => progress.cons _ (by simp)
            · rw [Program.along_pure]
              exact fun _ => progress
          · rw [Program.along_pure]
            exact fun _ => progress

theorem along_perform (op : Op) (issues : Issues log op) :
    (perform op).Along Issues (fun _ _ => True) log := by
  unfold perform Program.perform
  rw [Program.along_call]
  refine ⟨issues, fun _ => ?_⟩
  rw [Program.along_ret]
  trivial

theorem along_cleared :
    (do perform .clearPending; perform .clearStatus : Handler Unit).Along Issues (fun _ _ => True) log :=
  (along_perform .clearPending trivial).sequence fun _ _ _ _ => along_perform .clearStatus trivial

theorem along_startWalletPayment (publicKey : Option String) (participantData : List (String × String)) :
    (startWalletPayment slug publicKey participantData).Along Issues (fun _ _ => True) [] := by
  unfold startWalletPayment
  split
  · refine (along_payFromWallet _ participantData).sequence fun log attempt _ progress => ?_
    split
    · next failed =>
      obtain ⟨_, some_reference, unsigned⟩ := failed
      have progress := progress some_reference
      have warrant (call : Call) (own : Cancels attempt.created call) : Issues log (.fetch call) :=
        fun _ _ => ⟨progress.nothing unsigned, attempt.created, progress.bound, own⟩
      have cancels : (cancelCreated attempt.created).Along Issues (fun _ _ => True) log := by
        unfold cancelCreated fetch Program.perform
        split
        · next some_id =>
          rw [Program.along_call]
          refine ⟨warrant _ (.inr ⟨some_id, rfl⟩), fun _ => ?_⟩
          rw [Program.along_ret]
          trivial
        · rw [Program.along_call]
          refine ⟨warrant _ (.inl rfl), fun _ => ?_⟩
          rw [Program.along_ret]
          trivial
      refine cancels.sequence fun log cancelled _ _ => ?_
      split
      · rw [Program.along_pure]
        trivial
      · exact along_cleared
    · rw [Program.along_pure]
      trivial
  · rw [Program.along_pure]
    trivial

theorem along_startQrSession (participantData : List (String × String)) :
    (startQrSession slug participantData).Along Issues (fun _ _ => True) [] := by
  unfold startQrSession
  refine (along_createInvoice "" participantData .qr (by simp [SentNothing, Sent, Log.Saw])).sequence
    fun log result _ _ => ?_
  cases result with
  | error text =>
      rw [Program.along_pure]
      trivial
  | ok created =>
      exact (along_perform (.showSession created) trivial).sequence
        fun _ _ _ _ => along_perform (.persistPending created "") trivial

-- Going back cancels what the render showed when the participant agreed.
theorem along_cancelShown {hooks : Hooks} (agreed : Agreed log hooks) (nothing : SentNothing log) :
    (cancelShown hooks).Along Issues (fun _ _ => True) log := by
  have warrant {log : Log Reply} (agreed : Agreed log hooks) (nothing : SentNothing log) (call : Call)
      (own : Cancels hooks.shown call) : Issues log (.fetch call) :=
    fun _ _ => ⟨nothing, hooks.shown, .inr ⟨hooks, agreed, rfl⟩, own⟩
  have first : (cancelActive hooks).Along Issues (fun after _ => Agreed after hooks ∧ SentNothing after)
      log := by
    unfold cancelActive fetch Program.perform
    split
    · next some_id =>
      rw [Program.along_call]
      refine ⟨warrant agreed nothing _ (.inr ⟨some_id, rfl⟩), fun reply => ?_⟩
      rw [Program.along_ret]
      exact ⟨agreed.trans (List.suffix_cons _ _), nothing.cons _ (by simp)⟩
    · rw [Program.along_pure]
      exact ⟨agreed, nothing⟩
  refine first.sequence fun log cancelled _ ⟨agreed, nothing⟩ => ?_
  split
  · rw [Program.along_pure]
    trivial
  · unfold fetch
    rw [Program.along_perform_bind]
    refine ⟨warrant agreed nothing _ (.inl rfl), fun _ => ?_⟩
    rw [Program.along_pure]
    trivial

theorem along_cancelCurrentSession {hooks : Hooks} (agreed : Agreed log hooks)
    (nothing : SentNothing log) :
    (cancelCurrentSession hooks).Along Issues (fun _ _ => True) log := by
  unfold cancelCurrentSession
  split
  · rw [Program.along_pure]
    trivial
  · exact (along_cancelShown agreed nothing).sequence fun _ _ _ _ => along_cleared

theorem along_back : back.Along Issues (fun _ _ => True) [] := by
  unfold back perform
  rw [Program.along_perform_bind]
  refine ⟨trivial, fun hooks => ?_⟩
  split
  · rw [Program.along_perform_bind]
    refine ⟨⟨hooks, rfl⟩, fun agreed => ?_⟩
    split
    · next yes =>
      subst yes
      exact along_cancelCurrentSession (List.suffix_refl _) (by simp [SentNothing, Sent, Log.Saw])
    · rw [Program.along_pure]
      trivial
  · exact along_cleared

theorem along_refreshStatus (reference : String) :
    (refreshStatus reference).Along Issues (fun _ _ => True) log := by
  unfold refreshStatus fetch
  split
  · rw [Program.along_pure]
    trivial
  · rw [Program.along_perform_bind]
    refine ⟨issues_fetch (by simp [Cancels]), fun answered => ?_⟩
    split
    · exact along_perform (.hydrateStatus _) trivial
    · rw [Program.along_pure]
      trivial

theorem along_mount : mount.Along Issues (fun _ _ => True) [] := by
  unfold mount
  refine (along_perform .readPending trivial).sequence fun log stored _ _ => ?_
  split
  · rw [Program.along_pure]
    trivial
  · refine (along_perform .dateNow trivial).sequence fun log now _ _ => ?_
    split
    · exact along_perform .removePending trivial
    · exact (along_perform (.resumeSession _) trivial).sequence
        fun log _ _ _ => along_refreshStatus _

theorem along_qrPaid (payload : CheckoutStatus) :
    (qrPaid payload).Along Issues (fun _ _ => True) [] := by
  unfold qrPaid
  split
  · rw [Program.along_pure]
    trivial
  · exact along_perform (.hydrateStatus _) trivial

theorem along_checkLookup (email : String) :
    (checkLookup email).Along Issues (fun _ _ => True) [] := by
  unfold checkLookup fetch
  split
  · rw [Program.along_pure]
    trivial
  · rw [Program.along_perform_bind]
    refine ⟨issues_fetch (by simp [Cancels]), fun answered => ?_⟩
    split
    · split
      · rw [Program.along_pure]
        trivial
      · exact along_perform (.hydrateStatus _) trivial
    · rw [Program.along_pure]
      trivial

theorem along_handler (request : Request) :
    (handler slug request).Along Issues (fun _ _ => True) [] := by
  cases request with
  | mount => exact along_mount
  | qrPaid payload => exact along_qrPaid payload
  | checkLookup email => exact along_checkLookup email
  | continueToPayment => exact along_cleared
  | startWalletPayment publicKey participantData =>
      exact along_startWalletPayment publicKey participantData
  | startQrSession participantData => exact along_startQrSession participantData
  | back => exact along_back

end Handlers

variable {cfg after : Page} {label : PageLabel} {session : Created}

def SeenFinal (cfg : Page) (reference : String) : Prop :=
  ∃ thread ∈ cfg.threads, ∃ data, thread.log.Saw (.hydrateStatus data) () ∧
    data.reference = reference ∧ isFinal data.status = true

def Unfinished (cfg : Page) (session : Created) : Prop :=
  (∃ thread ∈ cfg.threads, Sent thread.log session) ∧ ¬ SeenFinal cfg session.reference

/-- The handler is set on a session whose cancellation would hit this one, and may still
cancel it. -/
def Cancelling (thread : PageThread) (session : Created) : Prop :=
  (∃ bound, Bound thread.log bound ∧ bound.Overlaps session) ∧
    thread.program.May fun op => ∃ call, op = .fetch call ∧ Cancels session call

def Event.leaves : Event → Bool
  | .beforeUnload | .pageHide => true
  | _ => false

/-- The page is not left, and no cancellation agreed to, while the session it shows is a
sent payment without an outcome; the wallet sends no payment whose session the page has
cancelled or is cancelling; and the server creates no session anew that has been sent. -/
structure KeepsSent (cfg : Page) (label : PageLabel) : Prop where
  leaves : ∀ event, label = .event event → event.leaves = true →
    hasActiveSession cfg.world.listening = true → ∀ session, Unfinished cfg session →
      cfg.world.listening.reference ≠ session.reference
  agrees : ∀ index outside thread hooks, label = .step index outside →
    cfg.threads[index]? = some thread → thread.Issues .confirmDialog →
    outside .confirmDialog = true → thread.log = [⟨.closure, hooks⟩] →
      ∀ session, Unfinished cfg session → ¬ hooks.shown.Overlaps session
  sends : ∀ index outside thread session, label = .step index outside →
    cfg.threads[index]? = some thread → thread.Issues (.sendTransaction session) →
    (∀ call ∈ cfg.world.outbox, ¬ Cancels session call) ∧
      Others cfg index fun other => ¬ Cancelling other session
  creates : ∀ index outside thread call created, label = .step index outside →
    cfg.threads[index]? = some thread → thread.Issues (.fetch call) →
    Hands ⟨.fetch call, outside (.fetch call)⟩ created →
      ∀ session, Unfinished cfg session → ¬ created.Overlaps session

section Invariant

/-- A sent payment without an outcome has not been cancelled, and nobody is about to. -/
structure Kept (cfg : Page) : Prop where
  disciplined : Disciplined (fun _ => Issues) (fun _ _ _ => True) cfg
  uncancelled : ∀ session, Unfinished cfg session → ∀ call ∈ cfg.world.outbox, ¬ Cancels session call
  spared : ∀ session, Unfinished cfg session → ∀ thread ∈ cfg.threads, ¬ Cancelling thread session

theorem SeenFinal.next {reference : String} (seen : SeenFinal cfg reference)
    (stepped : (machine slug).next cfg label = some after) : SeenFinal after reference := by
  obtain ⟨thread, member, data, saw, same, final⟩ := seen
  obtain ⟨index, at_index⟩ := List.mem_iff_getElem?.mp member
  obtain ⟨current, at_after, _, grown⟩ := thread_kept stepped at_index
  exact ⟨current, List.mem_of_getElem? at_after, data, saw.mono grown, same, final⟩

-- A payment without an outcome was so before, or the wallet has just sent it.
theorem unfinished_before (stepped : (machine slug).next cfg label = some after)
    (unfinished : Unfinished after session) :
    Unfinished cfg session ∨ ∃ index outside thread rest signature, label = .step index outside ∧
      cfg.threads[index]? = some thread ∧ thread.program = .call (.sendTransaction session) rest ∧
      signature ≠ "" ∧ after.world = cfg.world ∧
      after.threads[index]? = some (thread.resumed (.sendTransaction session) (.ok signature) rest) := by
  obtain ⟨⟨current, member, signature, some_signature, saw⟩, open_still⟩ := unfinished
  have unseen : ¬ SeenFinal cfg session.reference := fun seen => open_still (seen.next stepped)
  obtain ⟨index, at_index⟩ := List.mem_iff_getElem?.mp member
  rcases saw_after stepped at_index saw with ⟨thread, old, _, saw⟩ |
    ⟨outside, thread, rest, step, at_cfg, program, executed, rfl⟩
  · exact .inl ⟨⟨thread, List.mem_of_getElem? old, signature, some_signature, saw⟩, unseen⟩
  · have same : cfg.world = after.world := congrArg Prod.snd (Option.some.inj executed)
    exact .inr ⟨index, outside, thread, rest, signature, step, at_cfg, program, some_signature,
      same.symm, at_index⟩

/-- What a step adds to the calls: nothing, the cancellation of leaving, or the call of the
stepping handler. -/
theorem outbox_next (stepped : (machine slug).next cfg label = some after) {call : Call}
    (member : call ∈ after.world.outbox) :
    call ∈ cfg.world.outbox ∨
    (∃ event, label = .event event ∧ event.leaves = true ∧ hasActiveSession cfg.world.listening = true ∧
      call = .cancel cfg.world.listening.reference) ∨
    ∃ index outside thread rest, label = .step index outside ∧ cfg.threads[index]? = some thread ∧
      thread.program = .call (.fetch call) rest := by
  rcases next_cases stepped with ⟨_, _, rfl⟩ | ⟨event, world, step, occurred, rfl⟩ |
    ⟨index, outside, thread, op, rest, reply, world, step, at_index, program, executed, rfl⟩
  · exact .inl member
  · have left (same : cfg.world.leave = world) : call ∈ cfg.world.outbox ∨
        (hasActiveSession cfg.world.listening = true ∧ call = .cancel cfg.world.listening.reference) := by
      subst same
      change call ∈ cfg.world.leave.outbox at member
      unfold World.leave at member
      split at member
      · exact .inl member
      · next active =>
        rw [not_or] at active
        rcases List.mem_append.mp member with old | new
        · exact .inl old
        · exact .inr ⟨by simpa using active.1, List.mem_singleton.mp new⟩
    cases event with
    | beforeUnload =>
        rcases left (Option.some.inj occurred) with old | new
        · exact .inl old
        · exact .inr (.inl ⟨_, step, rfl, new⟩)
    | pageHide =>
        rcases left (Option.some.inj occurred) with old | new
        · exact .inl old
        · exact .inr (.inl ⟨_, step, rfl, new⟩)
    | elapse | render | effects =>
        cases occurred
        exact .inl member
  · change call ∈ world.outbox at member
    cases op with
    | fetch issued =>
        cases executed
        rcases List.mem_append.mp member with old | new
        · exact .inl old
        · cases List.mem_singleton.mp new
          exact .inr (.inr ⟨index, outside, thread, rest, step, at_index, program⟩)
    | hydrateStatus data =>
        cases executed
        refine .inl ?_
        simp only [World.hydrateStatus, World.clearPending] at member
        split at member <;> exact member
    | _ =>
        cases executed
        exact .inl member

/-- Whom a handler's history binds it to after a step it was bound to before, unless the
step is a creation that was answered or the participant's consent. -/
theorem bound_before {thread : PageThread} {op : Op} {reply : Reply op} {rest : Reply op → Handler Unit}
    {bound : Created} (held : Bound (thread.resumed op reply rest).log bound) :
    Bound thread.log bound ∨ Hands ⟨op, reply⟩ bound ∨
      ∃ hooks, (⟨op, reply⟩ : Entry Reply) = ⟨.confirmDialog, true⟩ ∧ thread.log = [⟨.closure, hooks⟩] ∧
        bound = hooks.shown := by
  rcases held with ⟨entry, member, hands⟩ | ⟨hooks, agreed, shown⟩
  · rcases List.mem_cons.mp member with rfl | earlier
    · exact .inr (.inl hands)
    · exact .inl (.inl ⟨entry, earlier, hands⟩)
  · rcases List.suffix_cons_iff.mp agreed with whole | earlier
    · obtain ⟨first, rest⟩ := List.cons.inj whole
      exact .inr (.inr ⟨hooks, first.symm, rest.symm, shown⟩)
    · exact .inl (.inr ⟨hooks, earlier, shown⟩)

theorem Kept.uncancelled_next (kept : Kept cfg) (keeps : KeepsSent cfg label)
    (stepped : (machine slug).next cfg label = some after) (unfinished : Unfinished after session)
    {call : Call} (issued : call ∈ after.world.outbox) : ¬ Cancels session call := by
  intro cancels
  rcases unfinished_before stepped unfinished with before |
    ⟨index, outside, thread, rest, signature, step, at_index, program, _, same, _⟩
  · rcases outbox_next stepped issued with old | ⟨event, step, leaves, active, rfl⟩ |
      ⟨index, outside, thread, rest, step, at_index, program⟩
    · exact kept.uncancelled session before call old cancels
    · rcases cancels with shown | ⟨_, other⟩
      · exact keeps.leaves event step leaves active session before (Call.cancel.inj shown)
      · cases other
    · -- Whoever cancels is bound to what it cancels.
      have present := List.mem_of_getElem? at_index
      obtain ⟨_, bound, held, own⟩ := kept.disciplined.issues present ⟨rest, program⟩ session cancels
      refine kept.spared session before thread present ⟨⟨bound, held, call, own, cancels⟩, ?_⟩
      rw [program]
      exact .inl ⟨call, rfl, cancels⟩
  · rw [same] at issued
    exact (keeps.sends index outside thread session step at_index ⟨rest, program⟩).1 call issued cancels

theorem Kept.spared_next (kept : Kept cfg) (keeps : KeepsSent cfg label)
    (stepped : (machine slug).next cfg label = some after) (unfinished : Unfinished after session)
    {current : PageThread} (member : current ∈ after.threads) : ¬ Cancelling current session := by
  rintro ⟨⟨bound, held, overlaps⟩, may⟩
  obtain ⟨index, at_index⟩ := List.mem_iff_getElem?.mp member
  rcases unfinished_before stepped unfinished with before |
    ⟨moved, outside, thread, rest, signature, step, at_moved, program, some_signature, _, at_after⟩
  · rcases thread_after stepped at_index with old | ⟨request, _, rfl, _⟩ |
      ⟨outside, thread, op, rest, reply, step, at_cfg, program, executed, rfl⟩
    · exact kept.spared session before current (List.mem_of_getElem? old) ⟨⟨bound, held, overlaps⟩, may⟩
    · rcases held with ⟨entry, none, _⟩ | ⟨hooks, agreed, _⟩
      · cases none
      · cases List.suffix_nil.mp agreed
    · rcases bound_before held with earlier | hands | ⟨hooks, entry, seen, rfl⟩
      · refine kept.spared session before thread (List.mem_of_getElem? at_cfg) ⟨⟨bound, earlier, overlaps⟩, ?_⟩
        rw [program]
        exact .inr ⟨reply, may⟩
      · have answered : ∃ call, op = .fetch call := by
          cases hands <;> exact ⟨_, rfl⟩
        obtain ⟨call, rfl⟩ := answered
        have answer : outside (.fetch call) = reply := congrArg Prod.fst (Option.some.inj executed)
        subst answer
        exact keeps.creates index outside thread call bound step at_cfg ⟨rest, program⟩ hands session before
          overlaps
      · cases entry
        have yes : outside .confirmDialog = true := congrArg Prod.fst (Option.some.inj executed)
        exact keeps.agrees index outside thread hooks step at_cfg ⟨rest, program⟩ yes seen session before
          overlaps
  · by_cases own : index = moved
    · -- Once it has sent something a handler cancels nothing.
      subst own
      rw [at_after, Option.some.injEq] at at_index
      subst at_index
      have sent : Sent (thread.resumed (.sendTransaction session) (.ok signature) rest).log session :=
        ⟨signature, some_signature, List.mem_cons_self⟩
      have along := disciplined_next (fun request => along_handler request) kept.disciplined stepped _ member
      obtain ⟨later, op, grown, ⟨call, rfl, cancels⟩, issues⟩ := along.may may
      exact (issues session cancels).1 session (sent.mono grown)
    · rcases thread_after stepped at_index with old | ⟨_, arrival, _, _⟩ | ⟨_, _, _, _, _, step', _, _, _, _⟩
      · exact (keeps.sends moved outside thread session step at_moved ⟨rest, program⟩).2 index current own
          old ⟨⟨bound, held, overlaps⟩, may⟩
      · rw [step] at arrival
        cases arrival
      · rw [step] at step'
        cases step'
        exact own rfl

theorem kept_next (kept : Kept cfg) (keeps : KeepsSent cfg label)
    (stepped : (machine slug).next cfg label = some after) : Kept after where
  disciplined := disciplined_next (fun request => along_handler request) kept.disciplined stepped
  uncancelled := fun _ unfinished _ issued => kept.uncancelled_next keeps stepped unfinished issued
  spared := fun _ unfinished _ member => kept.spared_next keeps stepped unfinished member

end Invariant

structure Loaded (cfg : Page) : Prop where
  threads : cfg.threads = []

/-- Any order of the page's and the outside's steps that keeps to the condition: a sent
payment without an outcome is cancelled by no call of the page. -/
theorem sent_payment_not_cancelled {init last : Page} (loaded : Loaded init)
    (run : (machine slug).Reaches KeepsSent init last) (unfinished : Unfinished last session) :
    ∀ call ∈ last.world.outbox, ¬ Cancels session call := by
  have nobody : ∀ thread, thread ∉ init.threads := by simp [loaded.threads]
  have start : Kept init := by
    constructor
    · exact fun thread member => absurd member (nobody thread)
    · rintro session ⟨⟨thread, member, _⟩, _⟩
      exact absurd member (nobody thread)
    · exact fun session _ thread member => absurd member (nobody thread)
  exact (run.invariant Kept start fun _ _ _ kept keeps stepped => kept_next kept keeps stepped).uncancelled
    session unfinished

section Meetup

def deposit : Created :=
  ⟨"3f6b1d52-8a4c-4e7f-9b20-c5d6e7f80912", "7e2a9c44-1b5d-4f63-8e9a-0d1c2b3a4f56"⟩

def outside : Choice
  | .closure => ⟨"", "", none⟩
  | .confirmDialog => true
  | .dateNow => 0
  | .fetch (.createSession _ _) => .ok deposit
  | .fetch (.createInvoice _) => .refused "Invalid request body"
  | .fetch (.cancelSession _) => .ok ()
  | .fetch (.cancel _) => .ok ()
  | .fetch (.submitSignature _ _) => .ok ⟨deposit.reference, "paid"⟩
  | .fetch (.confirm _ _) => .refused "Invoice not found or expired"
  | .fetch (.status _) => .refused "Not found"
  | .fetch (.participantStatus _) => .ok none
  | .showSession _ => ()
  | .resumeSession _ => ()
  | .persistPending _ _ => ()
  | .readPending => none
  | .removePending => ()
  | .clearPending => ()
  | .clearStatus => ()
  | .hydrateStatus _ => ()
  | .createUsdcTransfer _ => .ok ()
  | .sendTransaction _ => .ok "4vJ9JU1bJJE96FWSJKvHsmmFADCg4gpZQff4P3bkLKi"
  | .confirmTransaction _ => .ok true

def opened : Page :=
  let blank : Hooks := ⟨"", "", none⟩
  { world :=
      { hooks := blank, rendered := blank, listening := blank, storage := none, outbox := []
        now := 1754000000000 }
    threads := [] }

def pay : PageLabel :=
  .arrive (.startWalletPayment (some "GyGKxMyg1p9SsHfm15MkNUu1u9TN2JtTspcdmrtGUdse") [("email", "a@b.io")])

def steps (index count : Nat) : List PageLabel := List.replicate count (.step index outside)

def sends (log : Log Reply) (session : Created) : Bool :=
  log.any fun
    | ⟨.sendTransaction created, .ok signature⟩ => created = session && signature ≠ ""
    | _ => false

def untold (log : Log Reply) : Bool :=
  log.all fun
    | ⟨.hydrateStatus _, _⟩ => false
    | _ => true

def unfinished (cfg : Page) (session : Created) : Bool :=
  cfg.threads.any (sends ·.log session) && cfg.threads.all (untold ·.log)

theorem unfinished_of (check : unfinished cfg session = true) : Unfinished cfg session := by
  simp only [unfinished, Bool.and_eq_true, List.any_eq_true, List.all_eq_true] at check
  obtain ⟨⟨thread, member, sent⟩, untold⟩ := check
  constructor
  · simp only [sends, List.any_eq_true] at sent
    obtain ⟨entry, among, sent⟩ := sent
    split at sent
    · simp only [Bool.and_eq_true, decide_eq_true_eq] at sent
      obtain ⟨rfl, some_signature⟩ := sent
      exact ⟨thread, member, _, some_signature, among⟩
    · cases sent
  · rintro ⟨told, among, data, saw, _⟩
    have quiet := List.all_eq_true.mp (untold told among) _ saw
    cases quiet

def unsent (log : Log Reply) : Bool :=
  log.all fun
    | ⟨.sendTransaction _, _⟩ => false
    | _ => true

def harmless : Call → Bool
  | .cancel _ | .cancelSession _ => false
  | _ => true

def straightOp (cfg : Page) : Op → Bool
  | .confirmDialog => false
  | .sendTransaction _ => cfg.threads.length = 1 && cfg.world.outbox.all harmless
  | .fetch (.createSession _ _) => cfg.threads.all (unsent ·.log)
  | .fetch (.createInvoice _) => cfg.threads.all (unsent ·.log)
  | _ => true

def straight (cfg : Page) : PageLabel → Bool
  | .arrive _ => true
  | .event event => !event.leaves
  | .step index _ =>
      match cfg.threads[index]? with
      | some ⟨_, _, .call op _⟩ => straightOp cfg op
      | _ => true

theorem keepsSent_of_straight (check : straight cfg label = true) : KeepsSent cfg label := by
  have at_op {index : Nat} {choice : Choice} {thread : PageThread} {op : Op}
      (step : label = .step index choice) (at_index : cfg.threads[index]? = some thread)
      (suspended : thread.Issues op) : straightOp cfg op = true := by
    obtain ⟨request, log, program⟩ := thread
    obtain ⟨rest, same⟩ := suspended
    cases same
    subst step
    simpa only [straight, at_index] using check
  constructor
  · rintro event rfl leaves
    simp [straight, leaves] at check
  · intro index choice thread hooks step at_index suspended
    cases at_op step at_index suspended
  · intro index choice thread session step at_index suspended
    have one := at_op step at_index suspended
    simp only [straightOp, Bool.and_eq_true, decide_eq_true_eq, List.all_eq_true] at one
    obtain ⟨single, quiet⟩ := one
    constructor
    · rintro call member (rfl | ⟨_, rfl⟩)
      · cases quiet _ member
      · cases quiet _ member
    · intro j other elsewhere at_j
      have inside := (List.getElem?_eq_some_iff.mp at_index).1
      have inside' := (List.getElem?_eq_some_iff.mp at_j).1
      omega
  · intro index choice thread call created step at_index suspended hands session ⟨⟨sender, member, sent⟩, _⟩
    obtain ⟨signature, _, saw⟩ := sent
    have first := at_op step at_index suspended
    generalize choice (.fetch call) = reply at hands
    have none_sent : cfg.threads.all (unsent ·.log) = true := by
      cases hands <;> exact first
    cases List.all_eq_true.mp (List.all_eq_true.mp none_sent sender member) _ saw

/-- A payment in one go: sent, confirmed, its signature submitted. -/
theorem sent_payment_not_cancelled_meetup : ∃ (last : Page), Unfinished last deposit ∧
    last.world.outbox.length = 2 ∧ ∀ call ∈ last.world.outbox, ¬ Cancels deposit call := by
  obtain ⟨last, run, done⟩ := run_meets (machine "meetup") straight
    (pay :: steps 0 3 ++ [.event .render, .event .effects] ++ steps 0 6) opened
    (fun last => unfinished last deposit && last.world.outbox.length = 2) (by decide +kernel)
  simp only [Bool.and_eq_true, decide_eq_true_eq] at done
  have open_still := unfinished_of done.1
  exact ⟨last, open_still, done.2, sent_payment_not_cancelled ⟨rfl⟩
    (run.mono fun _ _ => keepsSent_of_straight) open_still⟩

/-- The participant leaves after the wallet has sent the transaction: the page cancels the
session it was sent for. -/
theorem leaving_cancels_sent_payment : ∃ (sent last : Page), Loaded opened ∧
    (machine "meetup").Reaches anyStep opened sent ∧ Unfinished sent deposit ∧
    (machine "meetup").next sent (.event .pageHide) = some last ∧ Unfinished last deposit ∧
    last.world.outbox = sent.world.outbox ++ [.cancel deposit.reference] := by
  obtain ⟨sent, run, done⟩ := run_meets (machine "meetup") (fun _ _ => true)
    (pay :: steps 0 3 ++ [.event .render, .event .effects] ++ steps 0 3) opened
    (fun sent => unfinished sent deposit && (hasActiveSession sent.world.listening &&
      sent.world.listening.reference = deposit.reference)) (by decide +kernel)
  simp only [Bool.and_eq_true, decide_eq_true_eq] at done
  obtain ⟨open_still, active, shown⟩ := done
  have left : sent.world.leave.outbox = sent.world.outbox ++ [.cancel deposit.reference] := by
    have some_reference : deposit.reference ≠ "" := by decide
    simp [World.leave, active, shown, some_reference]
  exact ⟨sent, ⟨sent.world.leave, sent.threads⟩, ⟨rfl⟩, run.any, unfinished_of open_still, rfl,
    unfinished_of open_still, left⟩

end Meetup

end Payknot.CheckoutPage
