import Payknot.VerifiedPayments

/-! Detection by reference, over an endpoint that answers from one history of the
merchant's token account and one record of transactions. -/
namespace Payknot
open GoText Interleaving

section Endpoint
variable (p : Platform) (ata : PublicKey) (listed : List SignatureInfo)
variable (record : Signature → Except Fault TransactionResult)

/-- What the chain answers for one operation: a listing is cut off at its limit. -/
def AnsweredBy : Entry Reply → Prop
  | ⟨.rpc (.getSignaturesForAddress _ address limit), reply⟩ => address = ata → reply = .ok (listed.take limit)
  | ⟨.rpc (.getTransaction _ sig), reply⟩ => reply = record sig
  | _ => True

variable (reference : String) (amount : Int64) (merchant : String)

/-- The session verifier's verdict on what the chain has under a signature. -/
def verdictOn (sig : Signature) : Verdict String :=
  match record sig with
  | .error fault => .rejected ("failed to get transaction: " ++ fault.text)
  | .ok result =>
      match decodeResult result with
      | .error text => .rejected text
      | .ok tx => verifyPayment p reference amount merchant tx

/-- The memo of a listed transaction, as the endpoint reports it, contains the reference. -/
def Mentions (info : SignatureInfo) : Prop :=
  ∃ memo, info.memo = some memo ∧ containsText memo.toUTF8.toList reference = true

def detectOn : List SignatureInfo → Verdict (String × String)
  | [] => .rejected "transaction not detected yet"
  | info :: rest =>
      if info.memo.any fun memo => containsText memo.toUTF8.toList reference then
        match verdictOn p record reference amount merchant info.signature with
        | .accepted sender => .accepted (p.signatureString info.signature, sender)
        | .rejected _ => detectOn rest
        | .panicked => .panicked
      else detectOn rest

end Endpoint

section Runs
variable {p : Platform} {ata : PublicKey} {listed : List SignatureInfo}
variable {record : Signature → Except Fault TransactionResult}
variable {reference merchant : String} {amount : Int64} {log later : History}

theorem mentions_info (info : SignatureInfo) :
    (info.memo.any fun memo => containsText memo.toUTF8.toList reference) = true ↔ Mentions reference info := by
  rw [Option.any_eq_true]
  rfl

theorem fetch_answered {signature : String} {sig : Signature} {result : Except String Transaction}
    (parsed : p.signatureFromBase58 signature = .ok sig)
    (run : Follows (fetchTransaction p signature) log result later)
    (answered : ∀ entry ∈ later, AnsweredBy ata listed record entry) :
    result = match record sig with
      | .error fault => .error ("failed to get transaction: " ++ fault.text)
      | .ok found => decodeResult found := by
  unfold fetchTransaction at run
  obtain ⟨client, middle, _, run⟩ := run.of_bind
  rw [parsed] at run
  obtain ⟨reply, run⟩ := run.of_perform_bind
  have same : reply = record sig := answered _ (run.grown.subset List.mem_cons_self)
  subst same
  cases found : record sig with
  | error fault =>
      rw [found] at run
      cases run
      rfl
  | ok value =>
      rw [found] at run
      cases run
      rfl

theorem verify_answered (set : ¬ (merchant = "" ∨ p.usdcMint = "")) {signature : String} {sig : Signature}
    {verdict : Verdict String} (parsed : p.signatureFromBase58 signature = .ok sig)
    (run : Follows (verifyTransactionForMerchantWithSender p reference signature amount merchant) log verdict later)
    (answered : ∀ entry ∈ later, AnsweredBy ata listed record entry) :
    verdict = verdictOn p record reference amount merchant sig := by
  unfold verifyTransactionForMerchantWithSender at run
  rw [if_neg set] at run
  obtain ⟨result, middle, fetches, run⟩ := run.of_bind
  have fetched := fetch_answered parsed fetches fun entry member => answered entry (run.grown.subset member)
  unfold verdictOn
  subst fetched
  cases found : record sig with
  | error fault =>
      rw [found] at run
      cases run
      rfl
  | ok value =>
      rw [found] at run
      dsimp only at run ⊢
      cases decoded : decodeResult value with
      | error text =>
          rw [decoded] at run
          cases run
          rfl
      | ok tx =>
          rw [decoded] at run
          cases run
          rfl

theorem detectAmong_answered (base58 : Base58 p) (set : ¬ (merchant = "" ∨ p.usdcMint = ""))
    {signatures : List SignatureInfo} {verdict : Verdict (String × String)}
    (run : Follows (detectAmong p reference amount merchant signatures) log verdict later)
    (answered : ∀ entry ∈ later, AnsweredBy ata listed record entry) :
    verdict = detectOn p record reference amount merchant signatures := by
  induction signatures generalizing log with
  | nil =>
      cases run
      rfl
  | cons info rest ih =>
      rw [detectAmong] at run
      rw [detectOn]
      cases memo : info.memo with
      | none =>
          rw [memo] at run
          exact ih run
      | some text =>
          rw [memo] at run
          dsimp only at run
          rw [Option.any_some]
          by_cases hit : containsText text.toUTF8.toList reference = true
          · rw [if_pos hit] at run ⊢
            obtain ⟨first, middle, verifies, run⟩ := run.of_bind
            have same := verify_answered set (base58.readsSignature info.signature) verifies
              fun entry member => answered entry (run.grown.subset member)
            rw [← same]
            cases first with
            | accepted sender =>
                cases run
                rfl
            | rejected message => exact ih run
            | panicked =>
                cases run
                rfl
          · rw [if_neg hit] at run ⊢
            exact ih run

-- The detection comes to the verdicts on the newest thirty listed transactions.
theorem detect_answered (base58 : Base58 p) {payee : Payee} (resolved : resolvePayee p merchant = .accepted payee)
    {verdict : Verdict (String × String)}
    (run : Follows (detectSignatureByReferenceForMerchant p reference amount merchant) [] verdict later)
    (answered : ∀ entry ∈ later, AnsweredBy payee.ata listed record entry) :
    verdict = detectOn p record reference amount merchant (listed.take 30) := by
  have set := resolvePayee_set base58 resolved
  unfold detectSignatureByReferenceForMerchant at run
  rw [if_neg set, resolved] at run
  obtain ⟨client, middle, _, run⟩ := run.of_bind
  obtain ⟨reply, run⟩ := run.of_perform_bind
  have same : reply = .ok (listed.take 30) := answered _ (run.grown.subset List.mem_cons_self) rfl
  subst same
  exact detectAmong_answered base58 set run answered

end Runs

section Completeness
variable {p : Platform} {listed : List SignatureInfo} {record : Signature → Except Fault TransactionResult}
variable {reference merchant : String} {amount : Int64} {later : History}

/-- The newest transaction that mentions the reference and is accepted is the one detected,
if the verifier does not panic at one before. -/
theorem detectOn_accepted {found : String × String}
    (detected : detectOn p record reference amount merchant listed = .accepted found) :
    ∃ info ∈ listed, Mentions reference info ∧ found.1 = p.signatureString info.signature ∧
      verdictOn p record reference amount merchant info.signature = .accepted found.2 := by
  induction listed with
  | nil => cases detected
  | cons info rest ih =>
      have later (detected : detectOn p record reference amount merchant rest = .accepted found) :
          ∃ any ∈ info :: rest, Mentions reference any ∧ found.1 = p.signatureString any.signature ∧
            verdictOn p record reference amount merchant any.signature = .accepted found.2 := by
        obtain ⟨other, member, holds⟩ := ih detected
        exact ⟨other, List.mem_cons_of_mem _ member, holds⟩
      rw [detectOn] at detected
      split at detected
      · next mentioned =>
        split at detected
        · next sender accepted =>
          cases detected
          exact ⟨info, List.mem_cons_self, (mentions_info info).mp mentioned, rfl, accepted⟩
        · exact later detected
        · cases detected
      · exact later detected

theorem detectOn_complete {info : SignatureInfo} {sender : String} (among : info ∈ listed)
    (mentioned : Mentions reference info)
    (accepted : verdictOn p record reference amount merchant info.signature = .accepted sender)
    (calm : ∀ other ∈ listed, Mentions reference other →
      verdictOn p record reference amount merchant other.signature ≠ .panicked) :
    ∃ found, detectOn p record reference amount merchant listed = .accepted found := by
  induction listed with
  | nil => cases among
  | cons first rest ih =>
      have calm_rest : ∀ other ∈ rest, Mentions reference other →
          verdictOn p record reference amount merchant other.signature ≠ .panicked :=
        fun other member => calm other (List.mem_cons_of_mem _ member)
      rw [detectOn]
      by_cases here : Mentions reference first
      · rw [if_pos ((mentions_info first).mpr here)]
        cases verdict : verdictOn p record reference amount merchant first.signature with
        | accepted sender => exact ⟨_, rfl⟩
        | panicked => exact absurd verdict (calm first List.mem_cons_self here)
        | rejected message =>
            rcases List.mem_cons.mp among with rfl | later
            · rw [accepted] at verdict
              cases verdict
            · exact ih later calm_rest
      · rw [if_neg fun mentioned => here ((mentions_info first).mp mentioned)]
        rcases List.mem_cons.mp among with rfl | later
        · exact absurd mentioned here
        · exact ih later calm_rest

/-- Among the newest thirty transactions of the merchant's token account detection misses
none that carries the reference and verifies. -/
theorem detection_complete_among_newest (base58 : Base58 p) {payee : Payee}
    (resolved : resolvePayee p merchant = .accepted payee) {verdict : Verdict (String × String)}
    (run : Follows (detectSignatureByReferenceForMerchant p reference amount merchant) [] verdict later)
    (answered : ∀ entry ∈ later, AnsweredBy payee.ata listed record entry)
    (calm : ∀ info ∈ listed.take 30, Mentions reference info →
      verdictOn p record reference amount merchant info.signature ≠ .panicked) :
    ((∃ found, verdict = .accepted found) ↔ ∃ info ∈ listed.take 30, Mentions reference info ∧
      ∃ sender, verdictOn p record reference amount merchant info.signature = .accepted sender) ∧
    ∀ signature sender, verdict = .accepted (signature, sender) → ∃ info ∈ listed.take 30,
      Mentions reference info ∧ signature = p.signatureString info.signature ∧
      verdictOn p record reference amount merchant info.signature = .accepted sender := by
  have same := detect_answered base58 resolved run answered
  subst same
  refine ⟨⟨?_, ?_⟩, fun signature sender detected => detectOn_accepted detected⟩
  · rintro ⟨found, detected⟩
    obtain ⟨info, among, mentioned, _, accepted⟩ := detectOn_accepted detected
    exact ⟨info, among, mentioned, found.2, accepted⟩
  · rintro ⟨info, among, mentioned, sender, accepted⟩
    exact detectOn_complete among mentioned accepted calm

end Completeness

section Meetup
open Mainnet

def recorded (sig : Signature) : Except Fault TransactionResult :=
  if sig = signature1 then .ok (landed signature1 [uuid1]).result else .error ⟨"not found"⟩

def endpoint (listed : List SignatureInfo) : (op : Op) → Reply op
  | .rpc .getHealth => .ok ()
  | .rpc (.getTransaction _ sig) => recorded sig
  | .rpc (.getSignaturesForAddress _ _ limit) => .ok (listed.take limit)
  | .sql _ => .error ⟨"no database"⟩
  | .redis _ => .error ⟨"no cache"⟩
  | .newUUID => ""
  | .now => 0
  | .postWebhook _ _ _ => ()

theorem endpoint_run (listed : List SignatureInfo) : ∃ verdict later,
    Follows (detectSignatureByReferenceForMerchant platform uuid1 1000000 merchant) [] verdict later ∧
      ∀ entry ∈ later, AnsweredBy merchantAccount listed recorded entry := by
  obtain ⟨verdict, later, run, answered⟩ := exists_follows (endpoint listed)
    (detectSignatureByReferenceForMerchant platform uuid1 1000000 merchant) []
  refine ⟨verdict, later, run, fun entry member => ?_⟩
  have by_endpoint := (answered entry member).resolve_left (List.not_mem_nil)
  obtain ⟨op, reply⟩ := entry
  cases op with
  | rpc call =>
      cases call with
      | getHealth => trivial
      | getTransaction client sig => exact by_endpoint
      | getSignaturesForAddress client address limit => exact fun _ => by_endpoint
  | _ => trivial

def mentioning : SignatureInfo := ⟨signature1, some ("[36] " ++ uuid1)⟩

def isAccepted : Verdict String → Bool
  | .accepted _ => true
  | _ => false

theorem mentioning_accepted : Mentions uuid1 mentioning ∧
    ∃ sender, verdictOn platform recorded uuid1 1000000 merchant mentioning.signature = .accepted sender := by
  refine ⟨⟨_, rfl, by decide +kernel⟩, ?_⟩
  have accepts : isAccepted (verdictOn platform recorded uuid1 1000000 merchant mentioning.signature) = true := by
    decide +kernel
  unfold isAccepted at accepts
  split at accepts
  · next sender same => exact ⟨sender, same⟩
  · cases accepts

/-- A deposit that is the only transaction is detected. -/
theorem detection_complete_among_newest_meetup : ∃ found later,
    Follows (detectSignatureByReferenceForMerchant platform uuid1 1000000 merchant) [] (.accepted found) later := by
  obtain ⟨verdict, later, run, answered⟩ := endpoint_run [mentioning]
  obtain ⟨mentioned, sender, accepted⟩ := mentioning_accepted
  have complete := detection_complete_among_newest base58 meetup_resolved.payee run answered (by
    intro info among _
    obtain rfl := List.mem_singleton.mp among
    rw [accepted]
    rintro ⟨⟩)
  obtain ⟨found, rfl⟩ := complete.1.mpr ⟨mentioning, List.mem_singleton_self _, mentioned, sender, accepted⟩
  exact ⟨found, later, run⟩

/-- A deposit behind thirty newer transactions is not detected. -/
theorem deposit_out_of_sight : ∃ (listed : List SignatureInfo) (verdict : Verdict (String × String)) (later : History),
    Follows (detectSignatureByReferenceForMerchant platform uuid1 1000000 merchant) [] verdict later ∧
    (∀ entry ∈ later, AnsweredBy merchantAccount listed recorded entry) ∧
    (∃ info ∈ listed, Mentions uuid1 info ∧
      ∃ sender, verdictOn platform recorded uuid1 1000000 merchant info.signature = .accepted sender) ∧
    verdict = .rejected "transaction not detected yet" := by
  obtain ⟨verdict, later, run, answered⟩ := endpoint_run (List.replicate 30 ⟨signature2, none⟩ ++ [mentioning])
  refine ⟨_, verdict, later, run, answered, ⟨mentioning, ?_, mentioning_accepted⟩, ?_⟩
  · exact List.mem_append_right _ (List.mem_singleton_self _)
  · rw [detect_answered base58 meetup_resolved.payee run answered]
    rfl

end Meetup

end Payknot
