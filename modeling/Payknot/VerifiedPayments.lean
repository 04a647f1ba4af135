import Payknot.Verdicts
import Payknot.Base58
import Payknot.Embedding

/-! The two on-chain verifiers as their callers run them: what they accept, how they agree,
which transactions make them index past the account keys, and what one transaction can be
accepted for. -/
namespace Payknot
open GoText Interleaving

section Runs
variable {p : Platform} {reference signature merchant sender : String} {amount : Int64} {later : History}

/-- A run of `fetchTransaction` answers the transaction it fetched. -/
theorem fetchTransaction_answers (signature : String) :
    (fetchTransaction p signature).Along (fun _ _ => True)
      (fun after result => ∀ tx, Fetched p after signature tx ↔ result = .ok tx) [] := by
  unfold fetchTransaction getRpcClientWithFailover rpc
  rw [Program.along_bind, Program.along_perform_bind]
  refine ⟨trivial, ?_⟩
  rintro (fault | _) <;>
  · simp only [Program.along_pure]
    cases parsed : p.signatureFromBase58 signature with
    | error text => simp [Fetched, parsed]
    | ok sig =>
        simp only [Program.along_perform_bind, true_and]
        rintro (fault | result)
        · simp [Fetched, Log.Saw]
        · simp only [Program.along_pure]
          intro tx
          constructor
          · rintro ⟨client, other, fetched, same, saw, decoded⟩
            rw [parsed] at same
            cases same
            simp only [Log.Saw, List.mem_cons, List.not_mem_nil, or_false] at saw
            rcases saw with here | health
            · cases here
              exact decoded
            · cases health
          · intro decoded
            exact ⟨_, sig, result, parsed, List.mem_cons_self, decoded⟩

/-- The verdict is the one on the transaction fetched, and without one it is a rejection. -/
theorem verify_follows {verdict : Verdict String}
    (run : Follows (verifyTransactionForMerchantWithSender p reference signature amount merchant) [] verdict later) :
    (∀ tx, Fetched p later signature tx → verdict = verifyPayment p reference amount merchant tx) ∧
      ((∀ tx, ¬ Fetched p later signature tx) → ∃ message, verdict = .rejected message) := by
  have along : (verifyTransactionForMerchantWithSender p reference signature amount merchant).Along
      (fun _ _ => True) (fun after verdict =>
        (∀ tx, Fetched p after signature tx → verdict = verifyPayment p reference amount merchant tx) ∧
          ((∀ tx, ¬ Fetched p after signature tx) → ∃ message, verdict = .rejected message)) [] := by
    unfold verifyTransactionForMerchantWithSender
    split
    · simp [Fetched, Log.Saw]
    · refine (fetchTransaction_answers signature).sequence fun after result _ fetched => ?_
      cases result with
      | error text => simp [fetched]
      | ok tx =>
          rw [Program.along_pure]
          refine ⟨?_, fun none => absurd ((fetched tx).mpr rfl) (none tx)⟩
          intro other is_other
          cases (fetched other).mp is_other
          rfl
  exact along.follows run

theorem verifyDirect_follows {verdict : Verdict Unit}
    (run : Follows (verifyDirectTransferForMerchant p signature amount merchant sender) [] verdict later) :
    (∀ tx, Fetched p later signature tx → verdict = verifyDirect p amount merchant sender tx) ∧
      ((∀ tx, ¬ Fetched p later signature tx) → ∃ message, verdict = .rejected message) := by
  have along : (verifyDirectTransferForMerchant p signature amount merchant sender).Along
      (fun _ _ => True) (fun after verdict =>
        (∀ tx, Fetched p after signature tx → verdict = verifyDirect p amount merchant sender tx) ∧
          ((∀ tx, ¬ Fetched p after signature tx) → ∃ message, verdict = .rejected message)) [] := by
    unfold verifyDirectTransferForMerchant
    split
    · simp [Fetched, Log.Saw]
    · refine (fetchTransaction_answers signature).sequence fun after result _ fetched => ?_
      cases result with
      | error text => simp [fetched]
      | ok tx =>
          rw [Program.along_pure]
          refine ⟨?_, fun none => absurd ((fetched tx).mpr rfl) (none tx)⟩
          intro other is_other
          cases (fetched other).mp is_other
          rfl
  exact along.follows run

-- With an endpoint that answers there is such a run.
theorem fetchTransaction_run {sig : Signature} {result : TransactionResult} {tx : Transaction}
    (parsed : p.signatureFromBase58 signature = .ok sig) (decoded : decodeResult result = .ok tx) :
    ∃ later, Follows (fetchTransaction p signature) [] (.ok tx) later ∧ Fetched p later signature tx := by
  have run : Follows (fetchTransaction p signature) [] (decodeResult result)
      [⟨.rpc (.getTransaction .primary sig), .ok result⟩, ⟨.rpc .getHealth, .ok ()⟩] := by
    unfold fetchTransaction
    have health : Follows getRpcClientWithFailover [] .primary [⟨.rpc .getHealth, .ok ()⟩] :=
      .perform_bind (.ok ()) (.ret _ _)
    refine health.bind ?_
    rw [parsed]
    exact .perform_bind (.ok result) (.ret _ _)
  rw [decoded] at run
  exact ⟨_, run, .primary, sig, result, parsed, List.mem_cons_self, decoded⟩

theorem verify_fetches {tx : Transaction} (set : ¬ (merchant = "" ∨ p.usdcMint = ""))
    (fetches : Follows (fetchTransaction p signature) [] (.ok tx) later) (reference : String) (amount : Int64) :
    Follows (verifyTransactionForMerchantWithSender p reference signature amount merchant) []
      (verifyPayment p reference amount merchant tx) later := by
  unfold verifyTransactionForMerchantWithSender
  rw [if_neg set]
  exact fetches.bind (.ret _ _)

theorem verifyDirect_fetches {tx : Transaction} (set : ¬ (merchant = "" ∨ p.usdcMint = ""))
    (fetches : Follows (fetchTransaction p signature) [] (.ok tx) later) (amount : Int64) (sender : String) :
    Follows (verifyDirectTransferForMerchant p signature amount merchant sender) []
      (verifyDirect p amount merchant sender tx) later := by
  unfold verifyDirectTransferForMerchant
  rw [if_neg set]
  exact fetches.bind (.ret _ _)

theorem resolvePayee_keys {payee : Payee} (resolved : resolvePayee p merchant = .accepted payee) :
    p.publicKeyFromBase58 merchant = some payee.merchant ∧ ∃ mint, p.publicKeyFromBase58 p.usdcMint = some mint := by
  unfold resolvePayee at resolved
  split at resolved
  · next owner mint parsed parsed_mint =>
    split at resolved
    · cases resolved
      exact ⟨parsed, mint, parsed_mint⟩
    · cases resolved
  · cases resolved

theorem resolvePayee_set {payee : Payee} (base58 : Base58 p) (resolved : resolvePayee p merchant = .accepted payee) :
    ¬ (merchant = "" ∨ p.usdcMint = "") := by
  obtain ⟨parsed, mint, parsed_mint⟩ := resolvePayee_keys resolved
  rintro (rfl | none)
  · rw [base58.empty] at parsed
    cases parsed
  · rw [none, base58.empty] at parsed_mint
    cases parsed_mint

end Runs

section Meetup
open Mainnet

def memoProgramV1 : PublicKey := 0x54a5350f85dc882d614a55672788a296ddf1eababd0a60678884932f4eef6a0

def meetupPayee : Payee := ⟨merchantKey, merchantAccount⟩

theorem meetup_parsed : platform.publicKeyFromBase58 merchant = some merchantKey ∧
    platform.publicKeyFromBase58 usdcMint = some mintKey ∧
    platform.publicKeyFromBase58 payer = some payerKey ∧
    platform.publicKeyFromBase58 memoProgramV1Text = some memoProgramV1 := by decide +kernel

theorem meetup_resolved : Resolved platform merchant memoProgramV1 meetupPayee where
  memo := meetup_parsed.2.2.2
  payee := by
    have derived : platform.findAssociatedTokenAddress merchantKey mintKey = .ok merchantAccount := by
      simp only [platform, and_self, if_true]
    have mint : platform.publicKeyFromBase58 platform.usdcMint = some mintKey := meetup_parsed.2.1
    unfold resolvePayee
    rw [meetup_parsed.1, mint]
    dsimp only
    rw [derived]
    rfl

theorem meetup_signature : platform.signatureFromBase58 signatureText1 = .ok signature1 := by
  have decoded : decode 64 signatureText1 = some signature1 := by decide +kernel
  simp only [platform, decoded]

theorem meetup_set : ¬ (merchant = "" ∨ platform.usdcMint = "") :=
  resolvePayee_set base58 meetup_resolved.payee

-- A run that fetches the deposit for the first session.
theorem meetup_fetches : ∃ later,
    Follows (fetchTransaction platform signatureText1) [] (.ok (deposit [uuid1])) later ∧
      Fetched platform later signatureText1 (deposit [uuid1]) :=
  fetchTransaction_run meetup_signature (show decodeResult (landed signature1 [uuid1]).result = _ from rfl)

end Meetup

section Acceptance
variable {p : Platform} {memoV1 : PublicKey} {payee : Payee} {reference signature merchant senderWallet : String}
variable {amount : Int64} {tx : Transaction} {verdict : Verdict String} {later : History}

/-- Every index of every instruction is that of a static account key. -/
def InRange (tx : Transaction) : Prop :=
  ∀ instruction ∈ tx.instructions, instruction.programIDIndex < tx.accountKeys.length ∧
    ∀ index ∈ instruction.accounts, index < tx.accountKeys.length

instance : Decidable (InRange tx) := inferInstanceAs (Decidable (∀ instruction ∈ tx.instructions, _))

theorem transferAccounts_mem {instruction : CompiledInstruction} {destIndex ownerIndex : Nat}
    (accounts : transferAccounts instruction = some (destIndex, ownerIndex)) :
    destIndex ∈ instruction.accounts ∧ ownerIndex ∈ instruction.accounts := by
  unfold transferAccounts at accounts
  repeat' split at accounts
  all_goals cases accounts
  all_goals simp_all

theorem InRange.static (inRange : InRange tx) : Static p tx := by
  rintro instruction present ⟨_, destIndex, ownerIndex, accounts, missing⟩
  obtain ⟨dest, owner⟩ := transferAccounts_mem accounts
  have bounded := (inRange instruction present).2
  rcases missing with past | past
  · exact absurd (bounded _ dest) (Nat.not_lt.mpr past)
  · exact absurd (bounded _ owner) (Nat.not_lt.mpr past)

theorem CarriesMemo.iff_resolved (valid : Resolved p merchant memoV1 payee) :
    CarriesMemo p tx reference ↔
      ∃ instruction ∈ tx.instructions, MemoAt p tx.accountKeys memoV1 reference instruction := by
  unfold CarriesMemo
  rw [valid.memo]
  constructor
  · rintro ⟨_, ⟨⟩, memo⟩
    exact memo
  · exact fun memo => ⟨memoV1, rfl, memo⟩

theorem LastPayer.of_paid {expected : UInt64} (paid : ∃ instruction ∈ tx.instructions, ∃ owner,
    Moves p tx.accountKeys instruction payee.ata owner expected) : ∃ owner, LastPayer p payee tx expected owner := by
  rcases take_sender p 0 payee "" expected tx with nobody | ⟨owner, payer, _⟩
  · obtain ⟨instruction, present, _, moves⟩ := paid
    rw [← paidBy_iff, nobody instruction present] at moves
    cases moves
  · exact ⟨owner, payer⟩

theorem LastPayer.moves {expected : UInt64} {owner : PublicKey} (payer : LastPayer p payee tx expected owner) :
    ∃ instruction ∈ tx.instructions, Moves p tx.accountKeys instruction payee.ata owner expected := by
  obtain ⟨before, last, after, split, moves, _⟩ := payer
  refine ⟨last, ?_, moves⟩
  rw [split]
  exact List.mem_append_right _ List.mem_cons_self

-- The session verifier accepts with the text of the last payer.
theorem verifyPayment_accepts (base58 : Base58 p) (valid : Resolved p merchant memoV1 payee) {sender : String} :
    verifyPayment p reference amount merchant tx = .accepted sender ↔
      Static p tx ∧ TransferPart p payee tx amount.toUInt64 ∧ CarriesMemo p tx reference ∧
      ∃ owner, LastPayer p payee tx amount.toUInt64 owner ∧ sender = p.publicKeyString owner := by
  rw [verifyPayment_accepted_iff valid, CarriesMemo.iff_resolved valid]
  simp only [inferSender, if_neg (base58.publicKeyString_ne _)]

theorem verifyPayment_accepts_some (base58 : Base58 p) (valid : Resolved p merchant memoV1 payee) :
    (∃ sender, verifyPayment p reference amount merchant tx = .accepted sender) ↔
      Static p tx ∧ TransferPart p payee tx amount.toUInt64 ∧ CarriesMemo p tx reference := by
  simp only [verifyPayment_accepts base58 valid]
  constructor
  · rintro ⟨_, static, transfers, memo, _⟩
    exact ⟨static, transfers, memo⟩
  · rintro ⟨static, transfers, memo⟩
    obtain ⟨owner, payer⟩ := LastPayer.of_paid transfers.paid
    exact ⟨_, static, transfers, memo, owner, payer, rfl⟩

/-- The exact acceptance condition of the session verifier. -/
theorem payment_verdict_exact (base58 : Base58 p) (valid : Resolved p merchant memoV1 payee)
    (run : Follows (verifyTransactionForMerchantWithSender p reference signature amount merchant) [] verdict later)
    (fetched : Fetched p later signature tx) (inRange : InRange tx) :
    ((∃ sender, verdict = .accepted sender) ↔
      CarriesMemo p tx reference ∧ TransferPart p payee tx amount.toUInt64) ∧
    (∀ (permuted : Transaction) (signature' : String) (verdict' : Verdict String) (later' : History),
      permuted.accountKeys = tx.accountKeys → permuted.instructions.Perm tx.instructions →
      Follows (verifyTransactionForMerchantWithSender p reference signature' amount merchant) [] verdict' later' →
      Fetched p later' signature' permuted → verdict'.outcome = verdict.outcome) ∧
    ∀ sender, verdict = .accepted sender → sender ≠ merchant ∧ ∃ owner, owner ≠ payee.merchant ∧
      LastPayer p payee tx amount.toUInt64 owner ∧ sender = p.publicKeyString owner := by
  have answered := (verify_follows run).1 tx fetched
  have static : Static p tx := inRange.static
  refine ⟨?_, ?_, ?_⟩
  · rw [answered, verifyPayment_accepts_some base58 valid]
    constructor
    · rintro ⟨_, transfers, memo⟩
      exact ⟨memo, transfers⟩
    · rintro ⟨memo, transfers⟩
      exact ⟨static, transfers, memo⟩
  · intro permuted signature' verdict' later' keys same run' fetched'
    rw [answered, (verify_follows run').1 permuted fetched']
    exact outcome_perm valid static keys same
  · intro sender accepted
    rw [answered, verifyPayment_accepts base58 valid] at accepted
    obtain ⟨_, transfers, _, owner, payer, rfl⟩ := accepted
    obtain ⟨instruction, present, moves⟩ := payer.moves
    have stranger : owner ≠ payee.merchant := by
      rintro rfl
      exact transfers.foreign instruction present ⟨_, _, moves⟩
    refine ⟨?_, owner, stranger, payer, rfl⟩
    intro same
    have read := base58.reads owner
    rw [same, (resolvePayee_keys valid.payee).1] at read
    exact stranger (Option.some.inj read).symm

/-- A deposit whose memo names the session. -/
theorem payment_verdict_exact_meetup : ∃ verdict later,
    Follows (verifyTransactionForMerchantWithSender Mainnet.platform Mainnet.uuid1 Mainnet.signatureText1 1000000
      Mainnet.merchant) [] verdict later ∧
    ((∃ sender, verdict = .accepted sender) ↔ CarriesMemo Mainnet.platform (Mainnet.deposit [Mainnet.uuid1]) Mainnet.uuid1 ∧
      TransferPart Mainnet.platform meetupPayee (Mainnet.deposit [Mainnet.uuid1]) (1000000 : Int64).toUInt64) := by
  obtain ⟨later, fetches, fetched⟩ := meetup_fetches
  have run := verify_fetches meetup_set fetches Mainnet.uuid1 1000000
  exact ⟨_, later, run, (payment_verdict_exact Mainnet.base58 meetup_resolved run fetched (by decide)).1⟩

/-- The direct verifier accepts what the session verifier's transfer part does, if the one
sender authorises every transfer; with a memo the session verifier then answers that sender. -/
theorem verifiers_agree (base58 : Base58 p) (valid : Resolved p merchant memoV1 payee) {sender : PublicKey}
    (address : p.publicKeyFromBase58 senderWallet = some sender) {verdict : Verdict Unit}
    (run : Follows (verifyDirectTransferForMerchant p signature amount merchant senderWallet) [] verdict later)
    (fetched : Fetched p later signature tx) (inRange : InRange tx) :
    (verdict = .accepted () ↔ TransferPart p payee tx amount.toUInt64 ∧
      ∀ instruction ∈ tx.instructions, TransferLike p tx.accountKeys instruction →
        ∃ dest moved, Moves p tx.accountKeys instruction dest sender moved) ∧
    (verdict = .accepted () → ∀ (reference signature' : String) (verdict' : Verdict String) (later' : History),
      CarriesMemo p tx reference →
      Follows (verifyTransactionForMerchantWithSender p reference signature' amount merchant) [] verdict' later' →
      Fetched p later' signature' tx → verdict' = .accepted senderWallet) := by
  have answered := (verifyDirect_follows run).1 tx fetched
  have static : Static p tx := inRange.static
  rw [answered, verifyDirect_accepted_iff valid.payee address]
  refine ⟨?_, ?_⟩
  · constructor
    · rintro ⟨_, transfers, only⟩
      refine ⟨transfers, fun instruction present transfer => ?_⟩
      rcases sight_cases p tx.accountKeys instruction with ⟨other, _⟩ |
        ⟨_, _, _, _, ⟨dest, owner, _, _, seen⟩ | ⟨_, seen⟩⟩
      · exact absurd transfer other
      · have moves := sight_transfer.mp seen
        obtain rfl := only instruction present _ _ _ moves
        exact ⟨_, _, moves⟩
      · exact absurd (sight_beyond.mp seen) (static instruction present)
    · rintro ⟨transfers, only⟩
      refine ⟨static, transfers, fun instruction present dest owner moved moves => ?_⟩
      obtain ⟨dest', moved', by_sender⟩ := only instruction present moves.transfer
      rw [← sight_transfer] at moves by_sender
      rw [moves] at by_sender
      cases by_sender
      rfl
  · rintro ⟨_, transfers, only⟩ reference signature' verdict' later' memo run' fetched'
    obtain ⟨owner, payer⟩ := LastPayer.of_paid transfers.paid
    obtain ⟨instruction, present, moves⟩ := payer.moves
    obtain rfl := only instruction present _ _ _ moves
    rw [(verify_follows run').1 tx fetched', verifyPayment_accepts base58 valid]
    exact ⟨static, transfers, memo, owner, payer, (base58.writes _ _ address).symm⟩

/-- The same deposit, checked for its payer. -/
theorem verifiers_agree_meetup : ∃ verdict later,
    Follows (verifyDirectTransferForMerchant Mainnet.platform Mainnet.signatureText1 1000000 Mainnet.merchant
      Mainnet.payer) [] verdict later ∧
    (verdict = .accepted () ↔
      TransferPart Mainnet.platform meetupPayee (Mainnet.deposit [Mainnet.uuid1]) (1000000 : Int64).toUInt64 ∧
      ∀ instruction ∈ (Mainnet.deposit [Mainnet.uuid1]).instructions,
        TransferLike Mainnet.platform (Mainnet.deposit [Mainnet.uuid1]).accountKeys instruction → ∃ dest moved,
          Moves Mainnet.platform (Mainnet.deposit [Mainnet.uuid1]).accountKeys instruction dest Mainnet.payerKey moved) := by
  obtain ⟨later, fetches, fetched⟩ := meetup_fetches
  have run := verifyDirect_fetches meetup_set fetches 1000000 Mainnet.payer
  exact ⟨_, later, run, (verifiers_agree Mainnet.base58 meetup_resolved meetup_parsed.2.2.1 run fetched
    (by decide)).1⟩

end Acceptance

section Panics
variable {p : Platform} {memoV1 : PublicKey} {payee : Payee} {reference signature merchant senderWallet : String}
variable {amount : Int64} {tx : Transaction} {later : History}

/-- An instruction that refers past the static keys stands behind one that the merchant
authorises, where the session verifier has returned. -/
def Shielded (p : Platform) (payee : Payee) (tx : Transaction) : Prop :=
  ∀ before instruction after, tx.instructions = before ++ instruction :: after →
    Beyond p tx.accountKeys instruction → ∃ earlier ∈ before, SelfPaid p payee tx.accountKeys earlier

theorem shielded_iff : Shielded p payee tx ↔ ¬ ∃ before instruction after,
    tx.instructions = before ++ instruction :: after ∧ Beyond p tx.accountKeys instruction ∧
    ∀ earlier ∈ before, ¬ Beyond p tx.accountKeys earlier ∧ ¬ SelfPaid p payee tx.accountKeys earlier := by
  constructor
  · rintro shielded ⟨before, instruction, after, split, beyond, clear⟩
    obtain ⟨earlier, among, self⟩ := shielded before instruction after split beyond
    exact (clear earlier among).2 self
  · intro no_first before instruction after split beyond
    by_contra unshielded
    -- The first such instruction has nothing before it that stops the loop.
    have present : instruction ∈ before ++ [instruction] := List.mem_append_right before List.mem_cons_self
    obtain ⟨front, first, back, same, is_beyond, none_before⟩ :=
      Scanning.exists_first (Beyond p tx.accountKeys) ⟨instruction, present, beyond⟩
    apply no_first
    refine ⟨front, first, back ++ after, ?_, is_beyond, fun earlier among => ⟨none_before earlier among, ?_⟩⟩
    · have extended := congrArg (· ++ after) same
      simpa [split] using extended
    · intro self
      have in_front : earlier ∈ before ++ [instruction] := by
        rw [same]
        exact List.mem_append_left _ among
      rcases List.mem_append.mp in_front with old | itself
      · exact unshielded ⟨earlier, old, self⟩
      · rw [List.mem_singleton] at itself
        subst itself
        exact none_before earlier among beyond

-- The direct verifier is stopped wherever the session verifier is.
theorem direct_panics (resolved : Resolved p merchant memoV1 payee) {sender : PublicKey}
    (parsed : p.publicKeyFromBase58 senderWallet = some sender)
    (panics : verifyDirect p amount merchant senderWallet tx = .panicked) :
    verifyPayment p reference amount merchant tx = .panicked := by
  rw [verifyDirect_panicked_iff resolved.payee parsed] at panics
  rw [verifyPayment_panicked_iff resolved]
  obtain ⟨before, instruction, after, split, beyond, passed⟩ := panics
  exact ⟨before, instruction, after, split, beyond, fun earlier among =>
    stopPayment_none_iff.mp (stopDirect_none_iff.mp (passed earlier among)).1⟩

/-- With valid addresses neither verifier indexes out of range exactly when every transfer
that refers past the static keys stands behind one by the merchant. -/
theorem no_panic_iff (memo : p.publicKeyFromBase58 memoProgramV1Text = some memoV1) {owner mint sender : PublicKey}
    (valid : p.publicKeyFromBase58 merchant = some owner) (valid_mint : p.publicKeyFromBase58 p.usdcMint = some mint)
    (valid_sender : p.publicKeyFromBase58 senderWallet = some sender) {verdict : Verdict String}
    {verdict' : Verdict Unit} {later' : History}
    (run : Follows (verifyTransactionForMerchantWithSender p reference signature amount merchant) [] verdict later)
    (run' : Follows (verifyDirectTransferForMerchant p signature amount merchant senderWallet) [] verdict' later')
    (same : ∀ tx, Fetched p later signature tx ↔ Fetched p later' signature tx) :
    (verdict ≠ .panicked ∧ verdict' ≠ .panicked) ↔ ∀ tx payee, Fetched p later signature tx →
      resolvePayee p merchant = .accepted payee → Shielded p payee tx := by
  by_cases fetched : ∃ tx, Fetched p later signature tx
  · obtain ⟨tx, fetched⟩ := fetched
    have answered := (verify_follows run).1 tx fetched
    have answered' := (verifyDirect_follows run').1 tx ((same tx).mp fetched)
    cases resolved : resolvePayee p merchant with
    | panicked =>
        unfold resolvePayee at resolved
        rw [valid, valid_mint] at resolved
        dsimp only at resolved
        split at resolved <;> cases resolved
    | rejected message =>
        have refused : verifyPayment p reference amount merchant tx = .rejected message := by
          unfold verifyPayment
          rw [memo, resolved]
        have refused' : verifyDirect p amount merchant senderWallet tx = .rejected message := by
          unfold verifyDirect
          rw [valid_sender, resolved]
        rw [answered, answered', refused, refused']
        simp
    | accepted payee =>
        have addresses : Resolved p merchant memoV1 payee := ⟨memo, resolved⟩
        have exactly {other : Transaction} (fetched' : Fetched p later signature other) :
            verdict ≠ .panicked ↔ Shielded p payee other := by
          rw [(verify_follows run).1 other fetched', shielded_iff, ← verifyPayment_panicked_iff addresses]
        constructor
        · rintro ⟨calm, _⟩ other payee' fetched' resolved'
          cases resolved'
          exact (exactly fetched').mp calm
        · intro shielded
          have calm := (exactly fetched).mpr (shielded tx payee fetched rfl)
          refine ⟨calm, ?_⟩
          rw [answered']
          rw [answered] at calm
          exact fun panics => calm (direct_panics addresses valid_sender panics)
  · have none : ∀ tx, ¬ Fetched p later signature tx := fun tx found => fetched ⟨tx, found⟩
    obtain ⟨message, rejected⟩ := (verify_follows run).2 none
    obtain ⟨message', rejected'⟩ := (verifyDirect_follows run').2 fun tx found => none tx ((same tx).mpr found)
    rw [rejected, rejected']
    simp [none]

/-- A deposit never makes them. -/
theorem no_panic_iff_meetup : ∃ verdict verdict' later later',
    Follows (verifyTransactionForMerchantWithSender Mainnet.platform Mainnet.uuid1 Mainnet.signatureText1 1000000
      Mainnet.merchant) [] verdict later ∧
    Follows (verifyDirectTransferForMerchant Mainnet.platform Mainnet.signatureText1 1000000 Mainnet.merchant
      Mainnet.payer) [] verdict' later' ∧ verdict ≠ .panicked ∧ verdict' ≠ .panicked := by
  obtain ⟨log, fetches, _⟩ := meetup_fetches
  have run := verify_fetches meetup_set fetches Mainnet.uuid1 1000000
  have run' := verifyDirect_fetches meetup_set fetches 1000000 Mainnet.payer
  refine ⟨_, _, log, log, run, run', ?_⟩
  rw [no_panic_iff meetup_parsed.2.2.2 meetup_parsed.1 meetup_parsed.2.1 meetup_parsed.2.2.1 run run'
    fun _ => Iff.rfl]
  intro tx payee fetched _ before instruction after split beyond
  cases ((fetchTransaction_answers Mainnet.signatureText1).follows fetches tx).mp fetched
  have inRange : InRange (Mainnet.deposit [Mainnet.uuid1]) := by decide
  refine absurd beyond (inRange.static instruction ?_)
  rw [split]
  exact List.mem_append_right _ List.mem_cons_self

/-- A version 0 deposit: source and destination are loaded from a lookup table, behind the
static keys. -/
def lookedUp : Transaction where
  accountKeys := [Mainnet.payerKey, Mainnet.tokenProgram]
  instructions := [⟨1, [2, 3, 0], [3, 0x40, 0x42, 0x0f, 0, 0, 0, 0, 0]⟩]
  numRequiredSignatures := 1

/-- Both verifiers panic on it. -/
theorem lookup_table_panics : ∃ later later',
    Follows (verifyTransactionForMerchantWithSender Mainnet.platform Mainnet.uuid1 Mainnet.signatureText1 1000000
      Mainnet.merchant) [] .panicked later ∧
    Follows (verifyDirectTransferForMerchant Mainnet.platform Mainnet.signatureText1 1000000 Mainnet.merchant
      Mainnet.payer) [] .panicked later' := by
  have decoded : decodeResult ⟨some ⟨none⟩, .ok lookedUp⟩ = .ok lookedUp := rfl
  have beyond : Beyond Mainnet.platform lookedUp.accountKeys ⟨1, [2, 3, 0], [3, 0x40, 0x42, 0x0f, 0, 0, 0, 0, 0]⟩ :=
    ⟨⟨rfl, by decide, .inl ⟨rfl, by decide⟩⟩, 3, 0, rfl, .inl (by decide)⟩
  have panics : verifyPayment Mainnet.platform Mainnet.uuid1 1000000 Mainnet.merchant lookedUp = .panicked :=
    (verifyPayment_panicked_iff meetup_resolved).mpr ⟨[], _, [], rfl, beyond, by simp⟩
  have panics' : verifyDirect Mainnet.platform 1000000 Mainnet.merchant Mainnet.payer lookedUp = .panicked :=
    (verifyDirect_panicked_iff meetup_resolved.payee meetup_parsed.2.2.1).mpr ⟨[], _, [], rfl, beyond, by simp⟩
  obtain ⟨later, fetches, _⟩ := fetchTransaction_run meetup_signature decoded
  have run := verify_fetches meetup_set fetches Mainnet.uuid1 1000000
  have run' := verifyDirect_fetches meetup_set fetches 1000000 Mainnet.payer
  rw [panics] at run
  rw [panics'] at run'
  exact ⟨later, later, run, run'⟩

end Panics

section Binding
variable {p : Platform} {memoV1 : PublicKey} {payee : Payee} {reference signature merchant : String}
variable {amount : Int64} {tx : Transaction}

/-- Lower-case hexadecimal digits in groups of eight, four, four, four and twelve. -/
def isCanonicalUUID (text : String) : Bool :=
  text.toList.length == 36 && text.toList.zipIdx.all fun (c, i) =>
    if i = 8 ∨ i = 13 ∨ i = 18 ∨ i = 23 then c == '-' else c.isDigit || ('a' ≤ c && c ≤ 'f')

/-- Some run of the session verifier that fetched this transaction for the signature accepts it. -/
def VerifiesFor (p : Platform) (tx : Transaction) (signature reference : String) (amount : Int64)
    (merchant : String) : Prop :=
  ∃ sender later, Follows (verifyTransactionForMerchantWithSender p reference signature amount merchant) []
    (.accepted sender) later ∧ Fetched p later signature tx

theorem verifiesFor_iff (base58 : Base58 p) (valid : Resolved p merchant memoV1 payee) {sig : Signature}
    {result : TransactionResult} (parsed : p.signatureFromBase58 signature = .ok sig)
    (decoded : decodeResult result = .ok tx) : VerifiesFor p tx signature reference amount merchant ↔
      Static p tx ∧ TransferPart p payee tx amount.toUInt64 ∧ CarriesMemo p tx reference := by
  rw [← verifyPayment_accepts_some base58 valid]
  constructor
  · rintro ⟨sender, later, run, fetched⟩
    exact ⟨sender, ((verify_follows run).1 tx fetched).symm⟩
  · rintro ⟨sender, accepted⟩
    obtain ⟨later, fetches, fetched⟩ := fetchTransaction_run parsed decoded
    have run := verify_fetches (resolvePayee_set base58 valid.payee) fetches reference amount
    rw [accepted] at run
    exact ⟨sender, later, run, fetched⟩

/-- A transaction is accepted for one reference at most exactly when it is no payment to the
merchant or its memos name one reference at most. -/
theorem one_reference_iff (base58 : Base58 p) (valid : Resolved p merchant memoV1 payee) {sig : Signature}
    {result : TransactionResult} (parsed : p.signatureFromBase58 signature = .ok sig)
    (decoded : decodeResult result = .ok tx) :
    (∀ first second, isCanonicalUUID first = true → isCanonicalUUID second = true → first ≠ second →
      ¬ (VerifiesFor p tx signature first amount merchant ∧ VerifiesFor p tx signature second amount merchant)) ↔
    (Static p tx → TransferPart p payee tx amount.toUInt64 → ∀ first second, isCanonicalUUID first = true →
      isCanonicalUUID second = true → CarriesMemo p tx first → CarriesMemo p tx second → first = second) := by
  simp only [verifiesFor_iff base58 valid parsed decoded]
  constructor
  · intro single static transfers first second canonical canonical' memo memo'
    by_contra different
    exact single first second canonical canonical' different ⟨⟨static, transfers, memo⟩, static, transfers, memo'⟩
  · rintro named first second canonical canonical' different ⟨⟨static, transfers, memo⟩, _, _, memo'⟩
    exact different (named static transfers first second canonical canonical' memo memo')

/-- A transaction without memos is not accepted for two references. -/
theorem one_reference_iff_meetup :
    ¬ (VerifiesFor Mainnet.platform (Mainnet.deposit []) Mainnet.signatureText1 Mainnet.uuid1 1000000 Mainnet.merchant ∧
      VerifiesFor Mainnet.platform (Mainnet.deposit []) Mainnet.signatureText1 Mainnet.uuid2 1000000 Mainnet.merchant) := by
  have decoded : decodeResult (Mainnet.landed Mainnet.signature1 []).result = .ok (Mainnet.deposit []) := rfl
  refine (one_reference_iff Mainnet.base58 meetup_resolved meetup_signature decoded).mpr ?_
    Mainnet.uuid1 Mainnet.uuid2 (by decide +kernel) (by decide +kernel) (by decide)
  rintro _ _ first _ _ _ memo _
  obtain ⟨instruction, present, programID, at_program, is_memo, _⟩ :=
    (CarriesMemo.iff_resolved meetup_resolved).mp memo
  obtain rfl := List.mem_singleton.mp present
  cases at_program
  exact absurd is_memo (by decide)

/-- One deposit with two memos is accepted for both sessions. -/
theorem one_deposit_two_references : isCanonicalUUID Mainnet.uuid1 = true ∧ isCanonicalUUID Mainnet.uuid2 = true ∧
    Mainnet.uuid1 ≠ Mainnet.uuid2 ∧
    VerifiesFor Mainnet.platform (Mainnet.deposit [Mainnet.uuid1, Mainnet.uuid2]) Mainnet.signatureText1
      Mainnet.uuid1 1000000 Mainnet.merchant ∧
    VerifiesFor Mainnet.platform (Mainnet.deposit [Mainnet.uuid1, Mainnet.uuid2]) Mainnet.signatureText1
      Mainnet.uuid2 1000000 Mainnet.merchant := by
  have decoded : decodeResult (Mainnet.landed Mainnet.signature1 [Mainnet.uuid1, Mainnet.uuid2]).result =
      .ok (Mainnet.deposit [Mainnet.uuid1, Mainnet.uuid2]) := rfl
  have static : Static Mainnet.platform (Mainnet.deposit [Mainnet.uuid1, Mainnet.uuid2]) :=
    InRange.static (by decide)
  have moves : Moves Mainnet.platform (Mainnet.deposit [Mainnet.uuid1, Mainnet.uuid2]).accountKeys
      ⟨3, [1, 2, 0], [3, 0x40, 0x42, 0x0f, 0, 0, 0, 0, 0]⟩ Mainnet.merchantAccount Mainnet.payerKey 1000000 :=
    ⟨⟨rfl, by decide, .inl ⟨rfl, by decide⟩⟩, ⟨2, 0, rfl, rfl, rfl⟩, by decide⟩
  have transfers : TransferPart Mainnet.platform meetupPayee (Mainnet.deposit [Mainnet.uuid1, Mainnet.uuid2])
      (1000000 : Int64).toUInt64 := by
    refine ⟨⟨_, List.mem_cons_self, _, moves⟩, fun instruction present self => ?_⟩
    have passed : ∀ i ∈ (Mainnet.deposit [Mainnet.uuid1, Mainnet.uuid2]).instructions,
        (stopPayment Mainnet.platform meetupPayee (Mainnet.deposit [Mainnet.uuid1, Mainnet.uuid2]).accountKeys
          i).isNone = true := by decide +kernel
    exact (stopPayment_none_iff.mp (Option.isNone_iff_eq_none.mp (passed instruction present))).2 self
  have accepted {reference : String} (among : reference ∈ [Mainnet.uuid1, Mainnet.uuid2]) :
      VerifiesFor Mainnet.platform (Mainnet.deposit [Mainnet.uuid1, Mainnet.uuid2]) Mainnet.signatureText1
        reference 1000000 Mainnet.merchant := by
    refine (verifiesFor_iff Mainnet.base58 meetup_resolved meetup_signature decoded).mpr ⟨static, transfers, ?_⟩
    refine (CarriesMemo.iff_resolved meetup_resolved).mpr
      ⟨⟨4, [], reference.toUTF8.toList⟩, ?_, Mainnet.memoProgram, rfl, by decide, ?_⟩
    · exact List.mem_cons_of_mem _ (List.mem_map_of_mem among)
    · exact decide_eq_true (List.infix_refl _)
  exact ⟨by decide +kernel, by decide +kernel, by decide, accepted (by simp), accepted (by simp)⟩

end Binding

end Payknot
