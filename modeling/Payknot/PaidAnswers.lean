import Payknot.History
import Payknot.SessionCreation

/-! What a paid answer stands on. Five endpoints read the checkout back before they say that
it is paid; manual verification composes its answer by hand, and a replayed answer is as old
as its record. -/
namespace Payknot
open GoText Interleaving

/-- The checkout of the reference is stored as paid by this signature, an absent one read
as the empty text. -/
def PaidRow (w : World) (reference signature : String) : Prop :=
  ∃ row ∈ w.checkouts, row.reference = reference ∧ row.signature.getD "" = signature ∧ row.status = .paid

def PaidStored (answer : Answer) (w : World) : Prop :=
  match answer with
  | .responded _ (.checkoutStatus resp) => resp.status = "paid" → PaidRow w resp.reference resp.signature
  | _ => True

def receiptFails : Entry Reply → Bool
  | ⟨.sql (.insertPaidCheckout _), .error _⟩ => true
  | _ => false

/-- No receipt failed to be stored, and an answer on record is right still. -/
def Grounded (w : World) (later : Log Reply) : Prop :=
  later.any receiptFails = false ∧ ∀ response ∈ later.filterMap replayedContent, PaidStored (.responded 200 response) w

def CheckoutsMinted (w : World) : Prop := ∀ row ∈ w.checkouts, row.reference ∈ w.minted

def Request.answersPaid : Request → Bool
  | .confirm _ | .recheck _ | .manualVerify _ | .detect _ | .v1SubmitSignature _ | .v1Detect _ => true
  | _ => false

def Op.plain : Op → Bool
  | .sql (.insertPaidCheckout _) | .sql (.loadIdempotent _ _ _) => false
  | _ => true

structure Plain (log : Log Reply) : Prop where
  stored : log.any receiptFails = false
  unread : log.filterMap replayedContent = []

section Histories

theorem Plain.nil : Plain [] := ⟨rfl, rfl⟩

theorem Plain.cons {log : Log Reply} (plain : Plain log) (entry : Entry Reply) (stored : receiptFails entry = false)
    (unread : replayedContent entry = none) : Plain (entry :: log) := by
  refine ⟨?_, ?_⟩
  · rw [List.any_cons, stored, plain.stored, Bool.or_self]
  · rw [List.filterMap_cons_none unread, plain.unread]

theorem Plain.append {seen log : Log Reply} (newer : Plain seen) (older : Plain log) : Plain (seen ++ log) := by
  refine ⟨?_, ?_⟩
  · rw [List.any_append, newer.stored, older.stored, Bool.or_self]
  · rw [List.filterMap_append, newer.unread, older.unread, List.append_nil]

theorem plain_of_ops {seen : Log Reply} (plain : ∀ entry ∈ seen, entry.op.plain = true) : Plain seen := by
  induction seen with
  | nil => exact .nil
  | cons entry rest ih =>
      have first := plain entry List.mem_cons_self
      have older := ih fun other member => plain other (List.mem_cons_of_mem _ member)
      obtain ⟨op, reply⟩ := entry
      cases op with
      | sql statement =>
          cases statement with
          | insertPaidCheckout | loadIdempotent => cases first
          | _ => exact older.cons _ rfl rfl
      | _ => exact older.cons _ rfl rfl

theorem Plain.grounded {log : Log Reply} (plain : Plain log) (w : World) : Grounded w log := by
  refine ⟨plain.stored, ?_⟩
  rw [plain.unread]
  rintro _ ⟨⟩

end Histories

section Pieces
variable {p : Platform} {log : Log Reply}

-- What even the recovery pass could be doing is plain.
theorem plain_of_issued {Result : Type} {program : Handler Result} {done : Log Reply → Result → Prop}
    (along : program.Along (Issues p .recoverErrorInvoices) done log) :
    program.Along (fun _ op => op.plain = true) (fun _ _ => True) log := by
  refine along.mono ?_ fun _ _ _ => trivial
  intro history op issued
  cases op with
  | sql statement =>
      cases statement with
      | insertPaidCheckout => cases issued.1
      | loadIdempotent => cases issued.endpoint
      | _ => rfl
  | _ => rfl

theorem plain_finalizePaidCheckout (reference signature : String) (invoiceData : InvoiceHash) (amount : Int64) :
    (finalizePaidCheckout p reference signature invoiceData amount).Along (fun _ op => op.plain = true)
      (fun _ _ => True) log := by
  unfold finalizePaidCheckout
  split
  · simp
  · refine (plain_of_issued (along_checkEmail _ _ _)).sequence fun after result _ _ => ?_
    cases result with
    | error text => simp
    | ok _ =>
        simp only [along_sql]
        refine ⟨rfl, ?_⟩
        rintro (fault | _)
        · simp
        · simp only [along_sql]
          refine ⟨rfl, ?_⟩
          rintro (fault | _) <;> simp

theorem plain_failAttempt (id signature error : String) :
    (failAttempt id signature error).Along (fun _ op => op.plain = true) (fun _ _ => True) log := by
  simp [failAttempt, Op.plain]

theorem plain_settleSession (id signature reference : String) :
    (settleSession id signature reference).Along (fun _ op => op.plain = true) (fun _ _ => True) log := by
  simp [settleSession, Op.plain]

-- What a program that no grounds hang on leaves behind.
theorem tracks_plain {Result : Type} {program : Handler Result}
    (plain : program.Along (fun _ op => op.plain = true) (fun _ _ => True) log) (w : World) :
    program.Tracks (performs p) (fun _ _ later => ∃ seen, later = seen ++ log ∧ Plain seen) w log := by
  refine (plain.tracks (fun _ _ => True) (fun _ => trivial) (fun _ _ => trivial) fun _ _ _ _ _ _ => trivial).mono ?_
  rintro _ after _ ⟨_, _, seen, rfl, ops⟩
  exact ⟨seen, rfl, plain_of_ops ops⟩

/-- The answer is as well founded as the history since `w` lets it be. -/
def Vouched (w : World) (answer : Answer) (after : World) (later : Log Reply) : Prop :=
  PaidStored answer after ↔ Grounded w later

theorem tracks_answered {start w : World} {answer : Answer} (plain : Plain log) (stored : PaidStored answer w) :
    (return answer : Handler Answer).Tracks (performs p) (Vouched start) w log := by
  rw [Program.tracks_pure]
  exact iff_of_true stored (plain.grounded start)

theorem paid_text {status : CheckoutStatus} (paid : status.text = "paid") : status = .paid := by
  cases status <;> first | rfl | exact absurd paid (by decide)

-- A checkout that was read back is stored as the response says.
theorem tracks_getCheckoutStatus (reference : String) (w : World) :
    (getCheckoutStatusByReference reference).Tracks (performs p) (fun status after later => after = w ∧
      (∃ reply, later = ⟨.sql (.selectCheckout reference), reply⟩ :: log) ∧ ∀ code,
        PaidStored (.responded code (.checkoutStatus (status.getD .zero))) w) w log := by
  unfold getCheckoutStatusByReference sql
  rw [Program.tracks_perform_bind]
  intro reply after performed
  obtain rfl := performs_looks rfl performed
  rcases reply with fault | (_ | row)
  · rw [Program.tracks_pure]
    exact ⟨rfl, ⟨_, rfl⟩, fun _ paid => absurd paid (by decide)⟩
  · rw [Program.tracks_pure]
    exact ⟨rfl, ⟨_, rfl⟩, fun _ paid => absurd paid (by decide)⟩
  · rw [Program.tracks_pure]
    refine ⟨rfl, ⟨_, rfl⟩, fun _ paid => ?_⟩
    have found : row ∈ after.checkouts := by
      obtain ⟨choice, _, executed⟩ := performed
      change exec p choice (.sql (.selectCheckout reference)) after = some (.ok (some row), after) at executed
      rcases exec_sql executed with ⟨_, wrong, _⟩ | ⟨value, same, ran⟩
      · cases wrong
      · cases same
        have picked := congrArg Prod.fst (Except.ok.inj ran)
        exact List.mem_of_find?_eq_some picked
    exact ⟨row, found, rfl, rfl, paid_text paid⟩

theorem tracks_respond {start : World} (plain : Plain log) (reference : String) (w : World) :
    (respondCheckoutStatus reference).Tracks (performs p) (Vouched start) w log := by
  refine (tracks_getCheckoutStatus reference w).sequence ?_
  rintro status _ _ ⟨rfl, ⟨reply, rfl⟩, stored⟩
  exact tracks_answered (plain.cons _ rfl rfl) (stored 200)

end Pieces

section Legacy
variable {p : Platform} {start : World}

theorem tracks_confirm (r : HttpRequest SignatureRequest) :
    (confirmCheckoutPayment p r).Tracks (performs p) (Vouched start) start [] := by
  unfold confirmCheckoutPayment redis sql
  split
  · exact tracks_answered .nil trivial
  · split
    · next req _ =>
      split
      · exact tracks_answered .nil trivial
      · rw [Program.tracks_perform_bind]
        intro reply found performed
        have read : Plain [⟨.redis (.hGetAll (redisKey req.reference)), reply⟩] := Plain.nil.cons _ rfl rfl
        rcases reply with fault | (_ | invoiceData)
        · exact tracks_answered read trivial
        · exact tracks_answered read trivial
        · dsimp only
          split
          · exact tracks_answered read trivial
          · split
            · exact tracks_answered read trivial
            · refine (tracks_plain (plain_of_issued (along_verifyTransaction _ _ _ _)) _).sequence ?_
              rintro verdict verified _ ⟨seen, rfl, plain⟩
              have plain := plain.append read
              cases verdict with
              | panicked => exact tracks_answered plain trivial
              | rejected text =>
                  dsimp only
                  rw [Program.tracks_perform_bind]
                  intro reply recorded performed
                  exact tracks_answered (plain.cons _ rfl rfl) trivial
              | accepted sender =>
                  refine (tracks_plain (plain_finalizePaidCheckout _ _ _ _) _).sequence ?_
                  rintro finalised settled _ ⟨newer, rfl, plain'⟩
                  have plain := plain'.append plain
                  cases finalised with
                  | error text => exact tracks_answered plain trivial
                  | ok _ =>
                      dsimp only
                      rw [Program.tracks_perform_bind]
                      intro reply dropped performed
                      exact tracks_respond (plain.cons _ rfl rfl) _ _
    · exact tracks_answered .nil trivial

theorem tracks_recheckUnpaid {log : Log Reply} (plain : Plain log) (reference signature : String) (w : World) :
    (recheckCheckoutPayment.unpaid p reference signature).Tracks (performs p) (Vouched start) w log := by
  unfold recheckCheckoutPayment.unpaid redis
  rw [Program.tracks_perform_bind]
  intro reply found performed
  have read := plain.cons ⟨.redis (.hGetAll (redisKey reference)), reply⟩ rfl rfl
  rcases reply with fault | (_ | invoiceData)
  · exact tracks_answered read trivial
  · exact tracks_answered read trivial
  · dsimp only
    split
    · exact tracks_answered read trivial
    · split
      · exact tracks_answered read trivial
      · split
        · exact tracks_answered read trivial
        · refine (tracks_plain (plain_of_issued (along_verifyTransaction _ _ _ _)) _).sequence ?_
          rintro verdict verified _ ⟨seen, rfl, plain'⟩
          have plain := plain'.append read
          cases verdict with
          | panicked => exact tracks_answered plain trivial
          | rejected text => exact tracks_answered plain trivial
          | accepted sender =>
              refine (tracks_plain (plain_finalizePaidCheckout _ _ _ _) _).sequence ?_
              rintro finalised settled _ ⟨newer, rfl, plain'⟩
              have plain := plain'.append plain
              cases finalised with
              | error text => exact tracks_answered plain trivial
              | ok _ =>
                  dsimp only
                  rw [Program.tracks_perform_bind]
                  intro reply dropped performed
                  exact tracks_respond (plain.cons _ rfl rfl) _ _

theorem tracks_recheck (r : HttpRequest SignatureRequest) :
    (recheckCheckoutPayment p r).Tracks (performs p) (Vouched start) start [] := by
  unfold recheckCheckoutPayment sql
  split
  · exact tracks_answered .nil trivial
  · split
    · next req _ =>
      split
      · exact tracks_answered .nil trivial
      · rw [Program.tracks_perform_bind]
        intro reply found performed
        have read : Plain [⟨.sql (.selectCheckout req.reference), reply⟩] := Plain.nil.cons _ rfl rfl
        rcases reply with fault | (_ | row)
        · exact tracks_recheckUnpaid read _ _ _
        · exact tracks_recheckUnpaid read _ _ _
        · dsimp only
          split
          · exact tracks_respond read _ _
          · exact tracks_recheckUnpaid read _ _ _
    · exact tracks_answered .nil trivial

theorem tracks_detectUnpaid {log : Log Reply} (plain : Plain log) (reference : String) (w : World) :
    (detectCheckoutPayment.unpaid p reference).Tracks (performs p) (Vouched start) w log := by
  unfold detectCheckoutPayment.unpaid redis
  rw [Program.tracks_perform_bind]
  intro reply found performed
  have read := plain.cons ⟨.redis (.hGetAll (redisKey reference)), reply⟩ rfl rfl
  rcases reply with fault | (_ | invoiceData)
  · exact tracks_answered read trivial
  · exact tracks_answered read trivial
  · dsimp only
    split
    · exact tracks_answered read trivial
    · split
      · exact tracks_answered read trivial
      · refine (tracks_plain (plain_of_issued (along_detectSignature _ _ _)) _).sequence ?_
        rintro verdict detected _ ⟨seen, rfl, plain'⟩
        have plain := plain'.append read
        rcases verdict with ⟨signature, sender⟩ | text | _
        · refine (tracks_plain (plain_finalizePaidCheckout _ _ _ _) _).sequence ?_
          rintro finalised settled _ ⟨newer, rfl, plain'⟩
          have plain := plain'.append plain
          cases finalised with
          | error text => exact tracks_answered plain trivial
          | ok _ =>
              dsimp only
              rw [Program.tracks_perform_bind]
              intro reply dropped performed
              exact tracks_respond (plain.cons _ rfl rfl) _ _
        · exact tracks_answered plain trivial
        · exact tracks_answered plain trivial

theorem tracks_detect (r : HttpRequest ReferenceRequest) :
    (detectCheckoutPayment p r).Tracks (performs p) (Vouched start) start [] := by
  unfold detectCheckoutPayment
  split
  · exact tracks_answered .nil trivial
  · split
    · next req _ =>
      dsimp only
      split
      · exact tracks_answered .nil trivial
      · refine (tracks_getCheckoutStatus _ _).sequence ?_
        rintro existing _ _ ⟨rfl, ⟨reply, rfl⟩, stored⟩
        have read : Plain [⟨.sql (.selectCheckout (trimSpace req.reference)), reply⟩] := Plain.nil.cons _ rfl rfl
        cases existing with
        | none => exact tracks_detectUnpaid read _ _
        | some existing =>
            dsimp only
            split
            · exact tracks_answered read (stored 200)
            · exact tracks_detectUnpaid read _ _
    · exact tracks_answered .nil trivial

end Legacy

section Sessions
variable {p : Platform} {start : World}

-- An answer on record is as good as what it names now.
theorem tracks_replayedAnswer (ownerEmail idemKey endpoint : String) {log : Log Reply} (plain : Plain log) (w : World) :
    (replayed ownerEmail idemKey endpoint).Tracks (performs p) (fun response after later =>
      after = w ∧ match response with
        | some content => Vouched w (.responded 200 content) after later
        | none => Plain later) w log := by
  unfold replayed loadIdempotentResponse sql
  split
  · split
    · rw [Program.tracks_pure]
      exact ⟨rfl, plain⟩
    · rw [Program.tracks_perform_bind]
      intro reply after performed
      obtain rfl := performs_looks rfl performed
      rcases reply with fault | (_ | content)
      · rw [Program.tracks_pure]
        exact ⟨rfl, plain.cons _ rfl rfl⟩
      · rw [Program.tracks_pure]
        exact ⟨rfl, plain.cons _ rfl rfl⟩
      · rw [Program.tracks_pure]
        refine ⟨rfl, ?_⟩
        simp [Vouched, Grounded, receiptFails, replayedContent, plain.stored, plain.unread]
  · rw [Program.tracks_pure]
    exact ⟨rfl, plain⟩

theorem PaidStored.kept {w after : World} {answer : Answer} (stored : PaidStored answer w)
    (same : after.checkouts = w.checkouts) : PaidStored answer after := by
  unfold PaidStored PaidRow at *
  rwa [same]

def Op.closing : Op → Bool
  | .sql (.saveIdempotent _) | .now | .postWebhook _ _ _ => true
  | _ => false

theorem closing_remember {log : Log Reply} (ownerEmail idemKey endpoint : String) (payload : Content) :
    (remember ownerEmail idemKey endpoint payload).Along (fun _ op => op.closing = true) (fun _ _ => True) log := by
  unfold remember saveIdempotentResponse
  split
  · split <;> simp [Op.closing]
  · simp

theorem closing_emitPaymentWebhook {log : Log Reply} (event : String) (payload : List (String × String)) :
    (emitPaymentWebhook p event payload).Along (fun _ op => op.closing = true) (fun _ _ => True) log := by
  unfold emitPaymentWebhook
  split <;> simp [Op.closing, Program.perform]

theorem tracks_closing {Result : Type} {program : Handler Result} {log : Log Reply}
    (closing : program.Along (fun _ op => op.closing = true) (fun _ _ => True) log) (w : World) :
    program.Tracks (performs p) (fun _ after later => after.checkouts = w.checkouts ∧
      ∃ seen, later = seen ++ log ∧ Plain seen) w log := by
  refine (closing.tracks (fun w after => after.checkouts = w.checkouts) (fun _ => rfl) ?_ ?_).mono ?_
  · intro w middle after first rest
    exact rest.trans first
  · intro op w reply after closes performed
    refine performs_frame .checkouts performed ?_
    cases op with
    | sql statement => cases statement <;> simp_all [Op.closing, Op.writes, Sql.writes]
    | _ => simp_all [Op.closing, Op.writes]
  · rintro _ after _ ⟨same, _, seen, rfl, ops⟩
    refine ⟨same, seen, rfl, plain_of_ops fun entry member => ?_⟩
    have closes := ops entry member
    revert closes
    cases entry.op with
    | sql statement => cases statement <;> simp [Op.closing, Op.plain]
    | _ => simp [Op.closing, Op.plain]

theorem tracks_notified {log : Log Reply} {w : World} {answer : Answer} (event : String) (told : List (String × String))
    (plain : Plain log) (stored : PaidStored answer w) :
    (do
      emitPaymentWebhook p event told
      return answer : Handler Answer).Tracks (performs p) (Vouched start) w log := by
  refine (tracks_closing (closing_emitPaymentWebhook _ _) _).sequence ?_
  rintro _ after _ ⟨same, seen, rfl, plain'⟩
  exact tracks_answered (plain'.append plain) (stored.kept same)

theorem tracks_failed {log : Log Reply} {w : World} {answer : Answer} (id signature error event : String)
    (told : List (String × String)) (plain : Plain log) (unpaid : ∀ after, PaidStored answer after) :
    (do
      failAttempt id signature error
      emitPaymentWebhook p event told
      return answer : Handler Answer).Tracks (performs p) (Vouched start) w log := by
  refine (tracks_plain (plain_failAttempt _ _ _) _).sequence ?_
  rintro _ failed _ ⟨newer, rfl, plain'⟩
  exact tracks_notified _ _ (plain'.append plain) (unpaid _)

theorem tracks_v1Detect (r : V1Request) :
    (v1DetectPayment p r).Tracks (performs p) (Vouched start) start [] := by
  unfold v1DetectPayment sql redis
  split
  · exact tracks_answered .nil trivial
  · rw [Program.tracks_perform_bind]
    intro reply found performed
    have read : Plain [⟨.sql (.selectSession (sessionID r.path "/detect")), reply⟩] := Plain.nil.cons _ rfl rfl
    rcases reply with fault | (_ | session)
    · exact tracks_answered read trivial
    · exact tracks_answered read trivial
    · dsimp only
      split
      · exact tracks_respond read _ _
      · rw [Program.tracks_perform_bind]
        intro reply cached performed
        have read := read.cons ⟨.redis (.hGetAll (redisKey session.reference)), reply⟩ rfl rfl
        rcases reply with fault | (_ | invoiceData)
        · exact tracks_answered read trivial
        · exact tracks_answered read trivial
        · refine (tracks_plain (plain_of_issued (along_detectSignature _ _ _)) _).sequence ?_
          rintro verdict detected _ ⟨seen, rfl, plain⟩
          have plain := plain.append read
          rcases verdict with ⟨signature, sender⟩ | text | _
          · refine (tracks_plain (plain_finalizePaidCheckout _ _ _ _) _).sequence ?_
            rintro finalised settled _ ⟨newer, rfl, plain'⟩
            have plain := plain'.append plain
            cases finalised with
            | error text => exact tracks_answered plain trivial
            | ok _ =>
                refine (tracks_plain (plain_settleSession _ _ _) _).sequence ?_
                rintro _ closed _ ⟨newer, rfl, plain'⟩
                have plain := plain'.append plain
                refine (tracks_getCheckoutStatus _ _).sequence ?_
                rintro status _ _ ⟨rfl, ⟨reply, rfl⟩, stored⟩
                exact tracks_notified _ _ (plain.cons _ rfl rfl) (stored 200)
          · refine (tracks_plain (plain_of_issued (along_emitPaymentWebhook _ _)) _).sequence ?_
            rintro _ told _ ⟨newer, rfl, plain'⟩
            exact tracks_answered (plain'.append plain) trivial
          · exact tracks_answered plain trivial

theorem tracks_v1SubmitSignature (r : V1Request) :
    (v1SubmitSignature p r).Tracks (performs p) (Vouched start) start [] := by
  unfold v1SubmitSignature sql redis
  split
  · exact tracks_answered .nil trivial
  · split
    · next body _ =>
      dsimp only
      split
      · exact tracks_answered .nil trivial
      · rw [Program.tracks_perform_bind]
        intro reply found performed
        obtain rfl := performs_looks rfl performed
        have read : Plain [⟨.sql (.selectSession (sessionID r.path "/submit-signature")), reply⟩] :=
          Plain.nil.cons _ rfl rfl
        rcases reply with fault | (_ | session)
        · exact tracks_answered read trivial
        · exact tracks_answered read trivial
        · refine (tracks_replayedAnswer _ _ _ read _).sequence ?_
          rintro response _ asked ⟨rfl, outcome⟩
          cases response with
          | some content =>
              rw [Program.tracks_pure]
              exact outcome
          | none =>
              dsimp only
              split
              · exact tracks_answered outcome trivial
              · rw [Program.tracks_perform_bind]
                intro reply verifying performed
                rw [Program.tracks_perform_bind]
                intro reply' cached performed
                have read := (outcome.cons ⟨.sql (.setSessionState _ .verifying), reply⟩ rfl rfl).cons
                  ⟨.redis (.hGetAll (redisKey session.reference)), reply'⟩ rfl rfl
                rcases reply' with fault | (_ | invoiceData)
                · exact tracks_answered read trivial
                · exact tracks_answered read trivial
                · refine (tracks_plain (plain_of_issued (along_verifyTransaction _ _ _ _)) _).sequence ?_
                  rintro verdict verified _ ⟨seen, rfl, plain⟩
                  have plain := plain.append read
                  cases verdict with
                  | panicked => exact tracks_answered plain trivial
                  | rejected text => exact tracks_failed _ _ _ _ _ plain fun _ => trivial
                  | accepted sender =>
                      refine (tracks_plain (plain_finalizePaidCheckout _ _ _ _) _).sequence ?_
                      rintro finalised settled _ ⟨newer, rfl, plain'⟩
                      have plain := plain'.append plain
                      cases finalised with
                      | error text => exact tracks_failed _ _ _ _ _ plain fun _ => trivial
                      | ok _ =>
                          refine (tracks_plain (plain_settleSession _ _ _) _).sequence ?_
                          rintro _ closed _ ⟨newer, rfl, plain'⟩
                          have plain := plain'.append plain
                          refine (tracks_getCheckoutStatus _ _).sequence ?_
                          rintro status _ _ ⟨rfl, ⟨reply, rfl⟩, stored⟩
                          refine (tracks_closing (closing_remember _ _ _ _) _).sequence ?_
                          rintro _ noted _ ⟨same, newest, rfl, plain'⟩
                          exact tracks_notified _ _ (plain'.append (plain.cons _ rfl rfl)) ((stored 200).kept same)
    · exact tracks_answered .nil trivial

end Sessions

section Manual
variable {p : Platform} {w after : World}

theorem performs_insertPaidCheckout {checkout : PaidCheckout} {reply : Except Fault Unit}
    (performed : performs p (.sql (.insertPaidCheckout checkout)) w reply after) :
    (∃ fault, reply = .error fault ∧ after = w) ∨
      reply = .ok () ∧ PaidRow after checkout.reference checkout.signature := by
  obtain ⟨choice, _, executed⟩ := performed
  change exec p choice (.sql (.insertPaidCheckout checkout)) w = some (reply, after) at executed
  rcases exec_sql executed with failed | ⟨value, same, ran⟩
  · exact .inl failed
  · simp only [Sql.run, runInsertPaidCheckout] at ran
    split at ran
    · cases ran
    · split at ran
      · cases ran
      · split at ran
        · cases ran
          exact .inr ⟨same, _, List.mem_append_right _ (List.mem_singleton_self _), rfl, rfl, rfl⟩
        · cases ran

theorem tracks_verifyDirect {log : Log Reply} (signature : String) (amount : Int64) (merchant sender : String) (w : World) :
    (verifyDirectTransferForMerchant p signature amount merchant sender).Tracks (performs p)
      (fun _ after later => after = w ∧ ∃ seen, later = seen ++ log ∧ Plain seen) w log := by
  refine ((chain_verifyDirect signature amount merchant sender).tracks (fun w after => after = w) (fun _ => rfl) ?_
    ?_).mono ?_
  · intro w middle after first rest
    exact rest.trans first
  · intro op w reply after asks performed
    refine performs_looks ?_ performed
    cases op <;> first | rfl | cases asks
  · rintro _ after _ ⟨same, _, seen, rfl, ops⟩
    refine ⟨same, seen, rfl, plain_of_ops fun entry member => ?_⟩
    have asks := ops entry member
    revert asks
    cases entry.op <;> simp [Op.asksChain, Op.plain]

-- A manually verified checkout is answered as paid, stored or not.
theorem tracks_receipt {log : Log Reply} (minted : CheckoutsMinted w) (plain : Plain log) (event : EventRow)
    (walletAddress signature : String) (amount : Int64) (participant : Option Object) :
    (do
      let reference ← Program.perform Op.newUUID
      let _ ← Program.perform (Op.sql (.insertPaidInvoice walletAddress reference signature amount))
      let _ ← Program.perform (Op.sql (.insertPaidCheckout ⟨event.id, walletAddress, reference, signature, amount,
        p.marshalMap participant, "wallet"⟩))
      return .responded 200 (.checkoutStatus
        { reference := reference, status := "paid", signature := signature
          network := networkFromMint, solscanURL := solscanURLForNetwork signature
          paymentMethod := "", participantData := participant }) : Handler Answer).Tracks (performs p) (Vouched w)
      w log := by
  rw [Program.tracks_perform_bind]
  intro reference drawn performed
  have fresh : ∀ row ∈ drawn.checkouts, row.reference ≠ reference := by
    obtain ⟨choice, _, executed⟩ := performed
    obtain ⟨unused, _, _, rfl⟩ := exec_newUUID executed
    rintro row member rfl
    exact unused (minted row member)
  rw [Program.tracks_perform_bind]
  intro reply invoiced performed
  have plain := (plain.cons ⟨.newUUID, reference⟩ rfl rfl).cons
    ⟨.sql (.insertPaidInvoice walletAddress reference signature amount), reply⟩ rfl rfl
  have same : invoiced.checkouts = drawn.checkouts :=
    performs_frame .checkouts performed (by simp [Op.writes, Sql.writes])
  rw [Program.tracks_perform_bind]
  intro reply after performed
  rcases performs_insertPaidCheckout performed with ⟨fault, rfl, rfl⟩ | ⟨rfl, stored⟩
  · rw [Program.tracks_pure]
    refine iff_of_false ?_ fun grounded => ?_
    · intro backed
      obtain ⟨row, member, is_reference, _⟩ := backed rfl
      rw [same] at member
      exact fresh row member is_reference
    · cases grounded.1
  · exact tracks_answered (plain.cons _ rfl rfl) fun _ => stored

theorem tracks_manualVerify (minted : CheckoutsMinted w) (r : HttpRequest ManualVerifyRequest) :
    (manualVerifyCheckoutPayment p r).Tracks (performs p) (Vouched w) w [] := by
  unfold manualVerifyCheckoutPayment sql newUUID
  split
  · exact tracks_answered .nil trivial
  · split
    · next req _ =>
      dsimp only
      split
      · exact tracks_answered .nil trivial
      · rw [Program.tracks_perform_bind]
        intro reply found performed
        obtain rfl := performs_looks rfl performed
        have read : Plain [⟨.sql (.selectActiveEventBySlug (trimSpace req.slug)), reply⟩] :=
          Plain.nil.cons _ rfl rfl
        rcases reply with fault | (_ | event)
        · exact tracks_answered read trivial
        · exact tracks_answered read trivial
        · dsimp only
          refine (tracks_verifyDirect _ _ _ _ _).sequence ?_
          rintro verdict _ _ ⟨rfl, seen, rfl, plain⟩
          have plain := plain.append read
          cases verdict with
          | panicked => exact tracks_answered plain trivial
          | rejected text => exact tracks_answered plain trivial
          | accepted _ => exact tracks_receipt minted plain _ _ _ _ _
    · exact tracks_answered .nil trivial

/-- What each of the six endpoints answers, whatever fails in it, is stored as paid if it
says so, exactly when no receipt failed to be stored and an answer on record is right still. -/
theorem paid_answer_exact {request : Request} {answer : Answer} {later : Log Reply}
    (answers : request.answersPaid = true) (minted : CheckoutsMinted w)
    (run : Traces (performs p) (handler p request) w [] answer after later) :
    PaidStored answer after ↔ Grounded w later := by
  cases request with
  | confirm r => exact (tracks_confirm r).traces run
  | recheck r => exact (tracks_recheck r).traces run
  | manualVerify r => exact (tracks_manualVerify minted r).traces run
  | detect r => exact (tracks_detect r).traces run
  | v1SubmitSignature r => exact (tracks_v1SubmitSignature r).traces run
  | v1Detect r => exact (tracks_v1Detect r).traces run
  | _ => cases answers

end Manual

section Meetup
open Mainnet

theorem opening_checkouts (chain : List Landed) : CheckoutsMinted (opening chain).world := by
  rintro _ ⟨⟩

/-- A manual verification of a deposit on the chain: one whose receipt is stored, and one
whose receipt is not. -/
theorem manual_runs (fails : Bool) : ∃ answer after later,
    Traces (performs platform) (handler platform (manualVerify signatureText1)) (opening [landed signature1 []]).world []
      answer after later ∧ later.any receiptFails = fails ∧ later.filterMap replayedContent = [] := by
  have played : ((handler platform (manualVerify signatureText1)).playLogged (exec platform)
      (List.replicate 5 (fine uuid1) ++ [if fails then down else fine uuid1]) (opening [landed signature1 []]).world
      []).any (fun (_, _, later) => later.any receiptFails == fails && (later.filterMap replayedContent).isEmpty) =
        true := by
    cases fails <;> decide +kernel
  obtain ⟨⟨answer, after, later⟩, played, ended⟩ := (Option.any_eq_true _ _).mp played
  simp only [Bool.and_eq_true, beq_iff_eq, List.isEmpty_iff] at ended
  exact ⟨answer, after, later, Program.playLogged_traces (machine platform) (fun _ _ => trivial) played, ended⟩

theorem paid_answer_exact_meetup : ∃ answer after later,
    Traces (performs platform) (handler platform (manualVerify signatureText1)) (opening [landed signature1 []]).world []
      answer after later ∧ PaidStored answer after := by
  obtain ⟨answer, after, later, run, stored, unread⟩ := manual_runs false
  refine ⟨answer, after, later, run, (paid_answer_exact rfl (opening_checkouts _) run).mpr ⟨stored, ?_⟩⟩
  rw [unread]
  rintro _ ⟨⟩

/-- Manual verification answers paid although its receipt was not stored. -/
theorem paid_without_receipt : ∃ answer after later,
    Traces (performs platform) (handler platform (manualVerify signatureText1)) (opening [landed signature1 []]).world []
      answer after later ∧ ¬ PaidStored answer after := by
  obtain ⟨answer, after, later, run, lost, _⟩ := manual_runs true
  refine ⟨answer, after, later, run, fun stored => ?_⟩
  have grounded := ((tracks_manualVerify (opening_checkouts _) _).traces run).mp stored
  rw [grounded.1] at lost
  cases lost

end Meetup

end Payknot
