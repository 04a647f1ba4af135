import Payknot.Tracking
import Payknot.Serving
import Payknot.History

/-! submit-signature marks a session as being verified before it looks for the invoice.
A refusal that never asked the chain leaves the row alone exactly when it came from an
earlier check. -/
namespace Payknot
open GoText Interleaving

def Op.fetches : Op → Bool
  | .rpc (.getTransaction _ _) => true
  | _ => false

/-- An UPDATE of `payment_sessions` that took effect; it dates the row as well. -/
def updatesSession : Entry Reply → Bool
  | ⟨.sql (.setSessionState _ _), .ok _⟩ | ⟨.sql (.setSessionPaid _ _), .ok _⟩ => true
  | _ => false

def Consulted (log : History) : Prop := log.any (·.op.fetches) = true

def RowUpdated (log : History) : Prop := log.any updatesSession = true

/-- An error answered without asking the chain leaves every session's row as it was. -/
def LeavesUntouched (p : Platform) (w : World) (r : V1Request) : Prop :=
  ∀ text status after later,
    Traces (Sound p) (v1SubmitSignature p r) w [] (httpError text status) after later →
      ¬ Consulted later → after.sessions = w.sessions ∧ ¬ RowUpdated later

def onRecord (w : World) (ownerEmail idemKey endpoint : String) : Option Content :=
  if idemKey = "" ∨ trimSpace ownerEmail = "" ∨ trimSpace idemKey = "" ∨ trimSpace endpoint = "" then none
  else (w.records.find? fun row => row.ownerEmail = ownerEmail && row.idemKey = idemKey &&
    row.endpoint = endpoint).map (·.response)

/-- The submission passes every check made before the row is marked. -/
structure TakenUp (p : Platform) (w : World) (r : V1Request) (session : SessionRow) (signature : String) :
    Prop where
  posted : r.method = .post
  signed : r.signature.map trimSpace = some signature
  given : signature ≠ ""
  found : ∃ id, p.uuidText (sessionID r.path "/submit-signature") = some id ∧
    w.sessions.find? (·.id = id) = some session
  fresh : onRecord w session.ownerEmail (trimSpace r.idempotencyKey) submitEndpoint = none
  payable : session.state = .awaitingPayment ∨ session.state = .verifying

def InvoiceExpired (w : World) (session : SessionRow) : Prop :=
  w.cache.find? (·.key = redisKey session.reference) = none

def Unverifiable (p : Platform) (session : SessionRow) (signature : String) : Prop :=
  (session.merchantWallet = "" ∨ p.usdcMint = "") ∨ ∃ text, p.signatureFromBase58 signature = .error text

/-- The row is marked for a submission that the chain is not going to be asked about. -/
def MarkedInVain (p : Platform) (w : World) (r : V1Request) : Prop :=
  ∃ session signature, TakenUp p w r session signature ∧
    (InvoiceExpired w session ∨ Unverifiable p session signature)

section Histories
variable {seen log : History} {entry : Entry Reply}

@[simp] theorem consulted_cons : Consulted (entry :: log) ↔ entry.op.fetches = true ∨ Consulted log := by
  simp [Consulted]

@[simp] theorem consulted_append : Consulted (seen ++ log) ↔ Consulted seen ∨ Consulted log := by
  simp [Consulted]

@[simp] theorem consulted_nil : ¬ Consulted [] := by simp [Consulted]

@[simp] theorem rowUpdated_cons : RowUpdated (entry :: log) ↔ updatesSession entry = true ∨ RowUpdated log := by
  simp [RowUpdated]

@[simp] theorem rowUpdated_append : RowUpdated (seen ++ log) ↔ RowUpdated seen ∨ RowUpdated log := by
  simp [RowUpdated]

@[simp] theorem rowUpdated_nil : ¬ RowUpdated [] := by simp [RowUpdated]

theorem Consulted.mono (consulted : Consulted log) (grown : log <:+ seen) : Consulted seen := by
  obtain ⟨newer, rfl⟩ := grown
  exact consulted_append.mpr (.inr consulted)

theorem not_consulted (quiet : ∀ entry ∈ seen, entry.op.fetches = false) : ¬ Consulted seen := by
  unfold Consulted
  rw [List.any_eq_true]
  rintro ⟨entry, member, fetches⟩
  rw [quiet entry member] at fetches
  cases fetches

end Histories

section Submission
variable {p : Platform} {w : World} {r : V1Request} {log : History}

/-- How a submission may end: in vain with the row marked, or otherwise after asking the
chain or with the rows as they were. -/
def SubmissionEnds (p : Platform) (w : World) (r : V1Request) (answer : Answer) (after : World)
    (later : History) : Prop :=
  (MarkedInVain p w r ∧ (∃ text status, answer = httpError text status) ∧ ¬ Consulted later ∧ RowUpdated later) ∨
    (¬ MarkedInVain p w r ∧ (Consulted later ∨ after.sessions = w.sessions ∧ ¬ RowUpdated later))

theorem tracks_onRecord (ownerEmail idemKey endpoint : String) :
    (replayed ownerEmail idemKey endpoint).Tracks (Sound p) (fun response after later =>
      response = onRecord w ownerEmail idemKey endpoint ∧ after = w ∧ ∃ seen, later = seen ++ log ∧
        ¬ Consulted seen ∧ ¬ RowUpdated seen) w log := by
  unfold replayed loadIdempotentResponse onRecord sql
  by_cases blank : idemKey = ""
  · rw [if_neg (not_not.mpr blank), if_pos (.inl blank), Program.tracks_pure]
    exact ⟨rfl, rfl, [], rfl, by simp⟩
  · rw [if_pos blank]
    by_cases unnamed : trimSpace ownerEmail = "" ∨ trimSpace idemKey = "" ∨ trimSpace endpoint = ""
    · rw [if_pos unnamed, if_pos (.inr unnamed), Program.tracks_pure]
      exact ⟨rfl, rfl, [], rfl, by simp⟩
    · rw [if_neg unnamed, if_neg (not_or.mpr ⟨blank, unnamed⟩), Program.tracks_perform_bind]
      intro reply after performed
      have answered := sound_sql performed
      cases answered
      generalize (w.records.find? _).map _ = stored
      have quiet (entry : Entry Reply) (is : entry.op = .sql (.loadIdempotent ownerEmail idemKey endpoint)) :
          ¬ Consulted [entry] ∧ ¬ RowUpdated [entry] := by
        obtain ⟨op, reply⟩ := entry
        cases is
        simp [Op.fetches, updatesSession]
      cases stored with
      | none =>
          rw [Program.tracks_pure]
          exact ⟨rfl, rfl, [_], rfl, quiet _ rfl⟩
      | some response =>
          rw [Program.tracks_pure]
          exact ⟨rfl, rfl, [_], rfl, quiet _ rfl⟩

theorem TakenUp.session_is {id signature : String} {session session' : SessionRow}
    (taken : TakenUp p w r session' signature)
    (cast : p.uuidText (sessionID r.path "/submit-signature") = some id)
    (found : w.sessions.find? (·.id = id) = some session) : session' = session := by
  obtain ⟨id', cast', found'⟩ := taken.found
  rw [cast, Option.some.injEq] at cast'
  subst cast'
  exact Option.some.inj (found'.symm.trans found)

-- A request is taken up for one session and one signature.
theorem TakenUp.unique {session session' : SessionRow} {signature signature' : String}
    (taken : TakenUp p w r session signature) (taken' : TakenUp p w r session' signature') :
    session' = session ∧ signature' = signature := by
  obtain ⟨id, cast, found⟩ := taken.found
  have signed := taken'.signed.symm.trans taken.signed
  exact ⟨taken'.session_is cast found, Option.some.inj signed⟩

theorem ends_early {answer : Answer} (untaken : ∀ session signature, ¬ TakenUp p w r session signature)
    (calm : ¬ RowUpdated log) :
    (return answer : Handler Answer).Tracks (Sound p) (SubmissionEnds p w r) w log := by
  rw [Program.tracks_pure]
  refine .inr ⟨?_, .inr ⟨rfl, calm⟩⟩
  rintro ⟨session, signature, taken, _⟩
  exact untaken session signature taken

-- What a program does that never fetches a transaction.
theorem tracks_unasking {Result : Type} {program : Handler Result}
    (quiet : program.Along (fun _ op => op.fetches = false) (fun _ _ => True) log) (w : World) :
    program.Tracks (Sound p) (fun _ _ later => ∃ seen, later = seen ++ log ∧ ¬ Consulted seen) w log := by
  refine (quiet.tracks (fun _ _ => True) (fun _ => trivial) (fun _ _ => trivial) fun _ _ _ _ _ _ => trivial).mono ?_
  rintro _ after _ ⟨_, _, seen, rfl, ops⟩
  exact ⟨seen, rfl, not_consulted ops⟩

theorem tracks_fetch (signature : String) (w : World) :
    (fetchTransaction p signature).Tracks (Sound p) (fun result _ later =>
      (∀ text, p.signatureFromBase58 signature = .error text → (∃ reason, result = .error reason) ∧
        ∃ seen, later = seen ++ log ∧ ¬ Consulted seen) ∧
      (∀ sig, p.signatureFromBase58 signature = .ok sig → Consulted later)) w log := by
  have health : getRpcClientWithFailover.Along (fun _ op => op.fetches = false) (fun _ _ => True) log := by
    unfold getRpcClientWithFailover
    rw [along_rpc]
    refine ⟨rfl, ?_⟩
    rintro (fault | _) <;> simp
  unfold fetchTransaction
  refine (tracks_unasking health w).sequence ?_
  rintro client checked _ ⟨seen, rfl, calm⟩
  cases parsed : p.signatureFromBase58 signature with
  | error text =>
      dsimp only
      rw [Program.tracks_pure]
      refine ⟨fun _ _ => ⟨⟨_, rfl⟩, seen, rfl, calm⟩, ?_⟩
      rintro _ ⟨⟩
  | ok sig =>
      dsimp only
      unfold rpc
      rw [Program.tracks_perform_bind]
      intro reply after performed
      have asked : Consulted (⟨.rpc (.getTransaction client sig), reply⟩ :: (seen ++ log)) :=
        consulted_cons.mpr (.inl rfl)
      rcases reply with fault | result
      · rw [Program.tracks_pure]
        refine ⟨?_, fun _ _ => asked⟩
        rintro _ ⟨⟩
      · rw [Program.tracks_pure]
        refine ⟨?_, fun _ _ => asked⟩
        rintro _ ⟨⟩

-- The verifier comes to ask the chain unless it rejects the submission by itself.
theorem tracks_verifier (session : SessionRow) (signature : String) (w : World) :
    (verifyTransactionForMerchant p session.reference signature session.amountAtomic
      session.merchantWallet).Tracks (Sound p) (fun verdict _ later =>
        (Unverifiable p session signature → (∃ text, verdict = .rejected text) ∧
          ∃ seen, later = seen ++ log ∧ ¬ Consulted seen) ∧
        (¬ Unverifiable p session signature → Consulted later)) w log := by
  unfold verifyTransactionForMerchant verifyTransactionForMerchantWithSender
  by_cases unset : session.merchantWallet = "" ∨ p.usdcMint = ""
  · rw [if_pos unset, Program.tracks_pure]
    exact ⟨fun _ => ⟨⟨_, rfl⟩, [], rfl, by simp⟩, fun verifiable => absurd (.inl unset) verifiable⟩
  · rw [if_neg unset]
    refine (tracks_fetch signature w).sequence fun result after later fetched => ?_
    have ended (verdict : Verdict String) (rejects : ∀ reason, result = .error reason → ∃ text, verdict = .rejected text) :
        (Unverifiable p session signature → (∃ text, verdict = .rejected text) ∧
          ∃ seen, later = seen ++ log ∧ ¬ Consulted seen) ∧
        (¬ Unverifiable p session signature → Consulted later) := by
      constructor
      · rintro (blank | ⟨text, malformed⟩)
        · exact absurd blank unset
        · obtain ⟨⟨reason, failed⟩, calm⟩ := fetched.1 text malformed
          exact ⟨rejects reason failed, calm⟩
      · intro verifiable
        cases parsed : p.signatureFromBase58 signature with
        | error text => exact absurd (.inr ⟨text, parsed⟩) verifiable
        | ok sig => exact fetched.2 sig parsed
    cases result with
    | error reason =>
        rw [Program.tracks_pure]
        exact ended _ fun _ _ => ⟨_, rfl⟩
    | ok tx =>
        rw [Program.tracks_pure]
        exact ended _ fun _ failed => by cases failed

-- A rejected submission is refused without asking anything further.
theorem tracks_rejected {w' : World} (vain : MarkedInVain p w r) (marked : RowUpdated log)
    (unasked : ¬ Consulted log) (id signature text event error : String) (told : List (String × String))
    (status : Nat) :
    (do
      failAttempt id signature text
      emitPaymentWebhook p event told
      return httpError error status : Handler Answer).Tracks (Sound p) (SubmissionEnds p w r) w' log := by
  have failing : (failAttempt id signature text).Along (fun _ op => op.fetches = false) (fun _ _ => True) log := by
    simp [failAttempt, Op.fetches]
  refine (tracks_unasking failing w').sequence ?_
  rintro _ failed _ ⟨seen, rfl, calm⟩
  have telling : (emitPaymentWebhook p event told).Along (fun _ op => op.fetches = false) (fun _ _ => True)
      (seen ++ log) := by
    unfold emitPaymentWebhook
    split <;> simp [Op.fetches, Program.perform]
  refine (tracks_unasking telling failed).sequence ?_
  rintro _ after _ ⟨newer, rfl, calm'⟩
  rw [Program.tracks_pure]
  refine .inl ⟨vain, ⟨_, _, rfl⟩, ?_, ?_⟩
  · simp [calm, calm', unasked]
  · exact rowUpdated_append.mpr (.inr (rowUpdated_append.mpr (.inr marked)))

-- Once the chain is asked nothing further is required.
theorem tracks_asked {program : Handler Answer} {w' : World} (vain : ¬ MarkedInVain p w r)
    (asked : Consulted log) : program.Tracks (Sound p) (SubmissionEnds p w r) w' log := by
  have grows : program.Tracks (Sound p) (fun _ _ later => True ∧ log <:+ later ∧ _) w' log :=
    (Program.along_grows program log).tracks (fun _ _ => True) (fun _ => trivial) (fun _ _ => trivial)
      fun _ _ _ _ _ _ => trivial
  exact grows.mono fun _ _ _ ended => .inr ⟨vain, .inl (asked.mono ended.2.1)⟩

theorem tracks_submission (r : V1Request) :
    (v1SubmitSignature p r).Tracks (Sound p) (SubmissionEnds p w r) w [] := by
  unfold v1SubmitSignature sql redis
  by_cases posted : r.method = .post
  · rw [if_neg (not_not.mpr posted)]
    cases signed : r.signature with
    | none =>
        refine ends_early (fun session signature taken => ?_) rowUpdated_nil
        have given := taken.signed
        simp [signed] at given
    | some body =>
        dsimp only
        by_cases blank : trimSpace body = ""
        · rw [if_pos blank]
          refine ends_early (fun session signature taken => ?_) rowUpdated_nil
          have given := taken.signed
          rw [signed, Option.map_some, blank, Option.some.injEq] at given
          exact taken.given given.symm
        · rw [if_neg blank, Program.tracks_perform_bind]
          intro reply read performed
          have answered := sound_sql performed
          simp only [Sql.run, withSessionId] at answered
          cases cast : p.uuidText (sessionID r.path "/submit-signature") with
          | none =>
              rw [cast] at answered
              cases answered
              refine ends_early (fun session signature taken => ?_) (by simp [updatesSession])
              obtain ⟨id, named, _⟩ := taken.found
              rw [cast] at named
              cases named
          | some id =>
              rw [cast] at answered
              cases answered
              cases found : w.sessions.find? (·.id = id) with
              | none =>
                  refine ends_early (fun session signature taken => ?_) (by simp [updatesSession])
                  obtain ⟨id', named, found'⟩ := taken.found
                  rw [cast, Option.some.injEq] at named
                  subst named
                  rw [found] at found'
                  cases found'
              | some session =>
                  dsimp only
                  refine (tracks_onRecord _ _ _).sequence ?_
                  rintro response w _ ⟨same, rfl, seen, rfl, unasked, unwritten⟩
                  cases response with
                  | some content =>
                      -- An answer on record is no refusal, and it changes nothing.
                      refine ends_early (fun session' signature taken => ?_) ?_
                      · obtain rfl := taken.session_is cast found
                        rw [taken.fresh] at same
                        cases same
                      · simp [unwritten, updatesSession]
                  | none =>
                      dsimp only
                      by_cases refuses : session.state ≠ .awaitingPayment ∧ session.state ≠ .verifying
                      · rw [if_pos refuses]
                        refine ends_early (fun session' signature taken => ?_) ?_
                        · obtain rfl := taken.session_is cast found
                          rcases taken.payable with awaiting | verifying
                          · exact refuses.1 awaiting
                          · exact refuses.2 verifying
                        · simp [unwritten, updatesSession]
                      · rw [if_neg refuses, Program.tracks_perform_bind]
                        intro reply marked performed
                        have marking := sound_sql performed
                        simp only [Sql.run, withSessionId, cast, settle, Prod.mk.injEq] at marking
                        obtain ⟨rfl, stored⟩ := marking
                        have same_cache : marked.cache = w.cache := by rw [← stored]; rfl
                        rw [Program.tracks_perform_bind]
                        intro reply looked performed
                        have looking := sound_redis performed
                        simp only [Redis.run, same_cache, settle, Prod.mk.injEq] at looking
                        obtain ⟨rfl, rfl⟩ := looking
                        have taken : TakenUp p w r session (trimSpace body) := by
                          refine ⟨posted, by rw [signed]; rfl, blank, ⟨id, cast, found⟩, same.symm, ?_⟩
                          by_contra neither
                          exact refuses (not_or.mp neither)
                        have unasked : ¬ Consulted (seen ++ [⟨.sql (.selectSession
                            (sessionID r.path "/submit-signature")), .ok (some session)⟩]) := by
                          simp [unasked, Op.fetches]
                        generalize seen ++ [_] = log at unasked
                        cases cached : w.cache.find? (·.key = redisKey session.reference) with
                        | none =>
                            have vain : MarkedInVain p w r := ⟨session, _, taken, .inl cached⟩
                            dsimp only [Option.map_none]
                            rw [Program.tracks_pure]
                            refine .inl ⟨vain, ⟨_, _, rfl⟩, ?_, ?_⟩
                            · simp [unasked, Op.fetches]
                            · simp [updatesSession]
                        | some hash =>
                            dsimp only [Option.map_some]
                            refine (tracks_verifier session (trimSpace body) _).sequence ?_
                            rintro verdict verified later ⟨rejects, asks⟩
                            by_cases unverifiable : Unverifiable p session (trimSpace body)
                            · obtain ⟨⟨text, rfl⟩, newer, rfl, calm⟩ := rejects unverifiable
                              refine tracks_rejected ⟨session, _, taken, .inr unverifiable⟩ ?_ ?_ _ _ _ _ _ _ _
                              · simp [updatesSession]
                              · simp [calm, unasked, Op.fetches]
                            · refine tracks_asked ?_ (asks unverifiable)
                              rintro ⟨session', signature, taken', expired | rejected⟩
                              · obtain ⟨rfl, rfl⟩ := taken.unique taken'
                                rw [InvoiceExpired, cached] at expired
                                cases expired
                              · obtain ⟨rfl, rfl⟩ := taken.unique taken'
                                exact unverifiable rejected
  · rw [if_pos posted]
    exact ends_early (fun session signature taken => posted taken.posted) rowUpdated_nil

theorem sound_answers {op : Op} (given : op ≠ .newUUID) (w : World) :
    ∃ reply after, Sound p op w reply after := by
  cases op with
  | newUUID => exact absurd rfl given
  | _ => exact ⟨_, _, ⟨none, ""⟩, rfl, rfl⟩

-- A submission draws no identifier, so it comes to an end on stores that are up.
theorem submission_ends (r : V1Request) (w : World) :
    ∃ answer after later, Traces (Sound p) (v1SubmitSignature p r) w [] answer after later := by
  have given : (v1SubmitSignature p r).Along (fun _ op => op ≠ .newUUID) (fun _ _ => True) [] := by
    refine Program.Along.mono (handlers_careful (p := p) (.v1SubmitSignature r)) ?_ fun _ _ _ => trivial
    rintro log op issued rfl
    rcases issued with opens | manual
    · cases opens
    · cases manual
  exact Traces.exists (fun _ w draws => sound_answers draws w) given w

theorem leavesUntouched_iff : LeavesUntouched p w r ↔ ¬ MarkedInVain p w r := by
  constructor
  · intro untouched vain
    obtain ⟨answer, after, later, traced⟩ := submission_ends r w
    rcases (tracks_submission r).traces traced with ⟨_, ⟨text, status, rfl⟩, unasked, updated⟩ | ⟨saved, _⟩
    · exact (untouched text status after later traced unasked).2 updated
    · exact saved vain
  · intro saved text status after later traced unasked
    rcases (tracks_submission r).traces traced with ⟨vain, _⟩ | ⟨_, asked | kept⟩
    · exact absurd vain saved
    · exact absurd asked unasked
    · exact kept

end Submission
end Payknot
