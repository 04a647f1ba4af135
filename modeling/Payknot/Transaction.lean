import Payknot.Platform

/-! The pure part of the on-chain verifiers: what they read out of one decoded
transaction. An index past the static account keys is a Go panic, kept apart from
a rejection. -/
namespace Payknot
open GoText

structure CompiledInstruction where
  programIDIndex : Nat
  accounts : List Nat
  data : List UInt8

structure Transaction where
  accountKeys : List PublicKey
  instructions : List CompiledInstruction
  numRequiredSignatures : Nat

structure TransactionMeta where
  err : Option String

/-- `rpc.GetTransactionResult`; the transaction may fail to decode. -/
structure TransactionResult where
  txMeta : Option TransactionMeta
  transaction : Except String Transaction

inductive Verdict (α : Type) where
  | accepted (value : α)
  | rejected (message : String)
  | panicked

def memoProgramV1Text : String := "Memo1UhkJRfHyvLMcVucJwxXeuD728EqVDDwQDxFMNo"

/-- `binary.LittleEndian.Uint64`. -/
def littleEndian (bytes : List UInt8) : UInt64 :=
  UInt64.ofNat (bytes.foldr (fun byte high => byte.toNat + 256 * high) 0)

/-- The destination and authority positions of a Transfer or TransferChecked
instruction; `none` where both verifiers skip the instruction. -/
def transferAccounts (instruction : CompiledInstruction) : Option (Nat × Nat) :=
  match instruction.data with
  | [] => none
  | opcode :: _ =>
      if opcode = 3 ∧ 9 ≤ instruction.data.length then
        match instruction.accounts with
        | _ :: dest :: owner :: _ => some (dest, owner)
        | _ => none
      else if opcode = 12 ∧ 9 ≤ instruction.data.length then
        match instruction.accounts with
        | _ :: _ :: dest :: owner :: _ => some (dest, owner)
        | _ => none
      else none

def transferAmount (instruction : CompiledInstruction) : UInt64 :=
  littleEndian ((instruction.data.drop 1).take 8)

/-- The merchant a payment is checked for and its USDC token account. -/
structure Payee where
  merchant : PublicKey
  ata : PublicKey

/-- `MustPublicKeyFromBase58` of the two addresses, and the account derived from them. -/
def resolvePayee (p : Platform) (merchantWalletStr : String) : Verdict Payee :=
  match p.publicKeyFromBase58 merchantWalletStr, p.publicKeyFromBase58 p.usdcMint with
  | some merchant, some mint =>
      match p.findAssociatedTokenAddress merchant mint with
      | .ok ata => .accepted ⟨merchant, ata⟩
      | .error text => .rejected ("failed to derive merchant ATA: " ++ text)
  | _, _ => .panicked

def isMemo (p : Platform) (memoV1 programID : PublicKey) : Bool :=
  programID = p.memoProgramID || programID = memoV1

/-- The loop variables of `VerifyTransactionForMerchantWithSender`. -/
structure Scan where
  memoFound : Bool
  transferFound : Bool
  senderWallet : String

def Scan.start : Scan := ⟨false, false, ""⟩

def Scan.memo (p : Platform) (memoV1 : PublicKey) (reference : String) (programID : PublicKey)
    (instruction : CompiledInstruction) (scan : Scan) : Scan :=
  if isMemo p memoV1 programID && containsText instruction.data reference then
    { scan with memoFound := true }
  else scan

def scanInstructions (p : Platform) (memoV1 : PublicKey) (payee : Payee)
    (keys : List PublicKey) (reference : String) (expected : UInt64) : List CompiledInstruction → Scan → Verdict Scan
  | [], scan => .accepted scan
  | instruction :: rest, scan =>
      match keys[instruction.programIDIndex]? with
      | none => scanInstructions p memoV1 payee keys reference expected rest scan
      | some programID =>
          let scan := scan.memo p memoV1 reference programID instruction
          if programID = p.tokenProgramID then
            match transferAccounts instruction with
            | none => scanInstructions p memoV1 payee keys reference expected rest scan
            | some (dest, owner) =>
                match keys[dest]?, keys[owner]? with
                | some destKey, some ownerKey =>
                    if ownerKey = payee.merchant then
                      .rejected "security violation: merchant self-payment"
                    else if destKey = payee.ata ∧ transferAmount instruction = expected then
                      scanInstructions p memoV1 payee keys reference expected rest
                        { scan with transferFound := true
                                    senderWallet := p.publicKeyString ownerKey }
                    else scanInstructions p memoV1 payee keys reference expected rest scan
                | _, _ => .panicked
          else scanInstructions p memoV1 payee keys reference expected rest scan

/-- Falls back on the first required signer other than the merchant. -/
def inferSender (p : Platform) (payee : Payee) (tx : Transaction) (senderWallet : String) : String :=
  if senderWallet = "" then
    match (tx.accountKeys.take tx.numRequiredSignatures).find? (· ≠ payee.merchant) with
    | some candidate => p.publicKeyString candidate
    | none => senderWallet
  else senderWallet

/-- `VerifyTransactionForMerchantWithSender` from the decoded transaction on. -/
def verifyPayment (p : Platform) (reference : String) (expectedAmount : Int64)
    (merchantWalletStr : String) (tx : Transaction) : Verdict String :=
  match p.publicKeyFromBase58 memoProgramV1Text with
  | none => .panicked
  | some memoV1 =>
      match resolvePayee p merchantWalletStr with
      | .panicked => .panicked
      | .rejected message => .rejected message
      | .accepted payee =>
          match scanInstructions p memoV1 payee tx.accountKeys reference expectedAmount.toUInt64
              tx.instructions .start with
          | .panicked => .panicked
          | .rejected message => .rejected message
          | .accepted scan =>
              if !scan.memoFound then
                .rejected ("payment verification failed: memo '" ++ reference ++ "' not found")
              else if !scan.transferFound then
                .rejected "payment verification failed: no matching SPL transfer found"
              else .accepted (inferSender p payee tx scan.senderWallet)

/-- The loop of `VerifyDirectTransferForMerchant`; the flag is `transferFound`. -/
def scanDirect (p : Platform) (payee : Payee) (sender : PublicKey) (keys : List PublicKey)
    (expected : UInt64) : List CompiledInstruction → Bool → Verdict Bool
  | [], found => .accepted found
  | instruction :: rest, found =>
      match keys[instruction.programIDIndex]? with
      | none => scanDirect p payee sender keys expected rest found
      | some programID =>
          if programID = p.tokenProgramID then
            match transferAccounts instruction with
            | none => scanDirect p payee sender keys expected rest found
            | some (dest, owner) =>
                match keys[dest]?, keys[owner]? with
                | some destKey, some ownerKey =>
                    if ownerKey = payee.merchant then
                      .rejected "security violation: merchant self-payment"
                    else if ownerKey ≠ sender then
                      .rejected "security violation: sender mismatch"
                    else if destKey = payee.ata ∧ transferAmount instruction = expected then
                      scanDirect p payee sender keys expected rest true
                    else scanDirect p payee sender keys expected rest found
                | _, _ => .panicked
          else scanDirect p payee sender keys expected rest found

/-- `VerifyDirectTransferForMerchant` from the decoded transaction on. -/
def verifyDirect (p : Platform) (expectedAmount : Int64) (merchantWalletStr senderWalletStr : String)
    (tx : Transaction) : Verdict Unit :=
  match p.publicKeyFromBase58 senderWalletStr with
  | none => .panicked
  | some sender =>
      match resolvePayee p merchantWalletStr with
      | .panicked => .panicked
      | .rejected message => .rejected message
      | .accepted payee =>
          match scanDirect p payee sender tx.accountKeys expectedAmount.toUInt64
              tx.instructions false with
          | .panicked => .panicked
          | .rejected message => .rejected message
          | .accepted false => .rejected "payment verification failed: no matching SPL transfer found"
          | .accepted true => .accepted ()

def decodeResult (result : TransactionResult) : Except String Transaction :=
  match result.txMeta with
  | none => .error "transaction data is empty"
  | some txMeta =>
      match txMeta.err with
      | some _ => .error "payment verification failed: transaction failed on-chain"
      | none =>
          match result.transaction with
          | .error text => .error ("failed to decode transaction: " ++ text)
          | .ok tx => .ok tx

section Meaning
variable (p : Platform) (keys : List PublicKey)

def MemoAt (memoV1 : PublicKey) (reference : String) (instruction : CompiledInstruction) : Prop :=
  ∃ programID, keys[instruction.programIDIndex]? = some programID ∧
    isMemo p memoV1 programID = true ∧ containsText instruction.data reference = true

/-- A Transfer or TransferChecked of exactly `expected` into the payee's token
account, authorised by someone other than the merchant. -/
def TransferAt (payee : Payee) (expected : UInt64) (instruction : CompiledInstruction) : Prop :=
  ∃ dest owner ownerKey, keys[instruction.programIDIndex]? = some p.tokenProgramID ∧
    transferAccounts instruction = some (dest, owner) ∧ keys[dest]? = some payee.ata ∧
    keys[owner]? = some ownerKey ∧ ownerKey ≠ payee.merchant ∧
    transferAmount instruction = expected

end Meaning

def CarriesMemo (p : Platform) (tx : Transaction) (reference : String) : Prop :=
  ∃ memoV1, p.publicKeyFromBase58 memoProgramV1Text = some memoV1 ∧
    ∃ instruction ∈ tx.instructions, MemoAt p tx.accountKeys memoV1 reference instruction

def PaysInto (p : Platform) (tx : Transaction) (merchantWalletStr : String) (amount : Int64) : Prop :=
  ∃ payee, resolvePayee p merchantWalletStr = .accepted payee ∧
    ∃ instruction ∈ tx.instructions, TransferAt p tx.accountKeys payee amount.toUInt64 instruction

theorem memo_flag (p : Platform) (memoV1 : PublicKey) (keys : List PublicKey) (reference : String)
    (programID : PublicKey) (instruction : CompiledInstruction) (scan : Scan)
    (at_program : keys[instruction.programIDIndex]? = some programID)
    (flag : (scan.memo p memoV1 reference programID instruction).memoFound = true) :
    scan.memoFound = true ∨ MemoAt p keys memoV1 reference instruction := by
  unfold Scan.memo at flag
  split at flag
  · next hit =>
    rw [Bool.and_eq_true] at hit
    exact .inr ⟨programID, at_program, hit.1, hit.2⟩
  · exact .inl flag

theorem memo_transferFound (p : Platform) (memoV1 : PublicKey) (reference : String)
    (programID : PublicKey) (instruction : CompiledInstruction) (scan : Scan) :
    (scan.memo p memoV1 reference programID instruction).transferFound = scan.transferFound := by
  unfold Scan.memo
  split <;> rfl

-- A flag raised by the loop was raised by one of the instructions it read.
theorem scan_sound (p : Platform) (memoV1 : PublicKey) (payee : Payee) (keys : List PublicKey)
    (reference : String) (expected : UInt64) (instructions : List CompiledInstruction)
    (scan result : Scan)
    (accepted : scanInstructions p memoV1 payee keys reference expected instructions scan =
      .accepted result) :
    (result.memoFound = true → scan.memoFound = true ∨
      ∃ instruction ∈ instructions, MemoAt p keys memoV1 reference instruction) ∧
    (result.transferFound = true → scan.transferFound = true ∨
      ∃ instruction ∈ instructions, TransferAt p keys payee expected instruction) := by
  induction instructions generalizing scan with
  | nil =>
      simp only [scanInstructions, Verdict.accepted.injEq] at accepted
      subst accepted
      exact ⟨.inl, .inl⟩
  | cons instruction rest ih =>
      have widen {property : CompiledInstruction → Prop} :
          (∃ later ∈ rest, property later) → ∃ any ∈ instruction :: rest, property any := by
        rintro ⟨later, member, holds⟩
        exact ⟨later, List.mem_cons_of_mem _ member, holds⟩
      simp only [scanInstructions] at accepted
      cases at_program : keys[instruction.programIDIndex]? with
      | none =>
          simp only [at_program] at accepted
          obtain ⟨memo, transfer⟩ := ih scan accepted
          exact ⟨fun found => (memo found).imp_right widen,
            fun found => (transfer found).imp_right widen⟩
      | some programID =>
          simp only [at_program] at accepted
          -- The loop goes on with the memo flag of this instruction taken in.
          have memo_step {later : Scan}
              (same : later.memoFound = (scan.memo p memoV1 reference programID instruction).memoFound)
              (tail : result.memoFound = true → later.memoFound = true ∨
                ∃ i ∈ rest, MemoAt p keys memoV1 reference i) (found : result.memoFound = true) :
              scan.memoFound = true ∨
                ∃ i ∈ instruction :: rest, MemoAt p keys memoV1 reference i := by
            rcases tail found with flag | hit
            · rw [same] at flag
              exact (memo_flag p memoV1 keys reference programID instruction scan at_program flag).imp_right
                fun here => ⟨instruction, List.mem_cons_self, here⟩
            · exact .inr (widen hit)
          have skip (went : scanInstructions p memoV1 payee keys reference expected rest
              (scan.memo p memoV1 reference programID instruction) = .accepted result) :
              (result.memoFound = true → scan.memoFound = true ∨
                ∃ i ∈ instruction :: rest, MemoAt p keys memoV1 reference i) ∧
              (result.transferFound = true → scan.transferFound = true ∨
                ∃ i ∈ instruction :: rest, TransferAt p keys payee expected i) := by
            obtain ⟨memo, transfer⟩ := ih _ went
            rw [memo_transferFound] at transfer
            exact ⟨memo_step rfl memo, fun found => (transfer found).imp_right widen⟩
          split at accepted
          · next token =>
            subst token
            cases accounts : transferAccounts instruction with
            | none =>
                simp only [accounts] at accepted
                exact skip accepted
            | some positions =>
                obtain ⟨dest, owner⟩ := positions
                simp only [accounts] at accepted
                cases at_dest : keys[dest]? with
                | none => simp [at_dest] at accepted
                | some destKey =>
                    cases at_owner : keys[owner]? with
                    | none => simp [at_dest, at_owner] at accepted
                    | some ownerKey =>
                        simp only [at_dest, at_owner] at accepted
                        split at accepted
                        · exact absurd accepted (by simp)
                        · next stranger =>
                          split at accepted
                          · next hit =>
                            obtain ⟨memo, transfer⟩ := ih _ accepted
                            refine ⟨memo_step rfl memo, fun _ => .inr
                              ⟨instruction, List.mem_cons_self, dest, owner, ownerKey, at_program,
                                accounts, ?_, at_owner, stranger, hit.2⟩⟩
                            rw [at_dest, hit.1]
                          · exact skip accepted
          · exact skip accepted

-- What an accepted session payment shows about its transaction.
theorem verifyPayment_sound (p : Platform) (reference : String) (amount : Int64)
    (merchantWalletStr : String) (tx : Transaction) (sender : String)
    (accepted : verifyPayment p reference amount merchantWalletStr tx = .accepted sender) :
    PaysInto p tx merchantWalletStr amount ∧ CarriesMemo p tx reference := by
  unfold verifyPayment at accepted
  cases memoV1 : p.publicKeyFromBase58 memoProgramV1Text with
  | none => simp [memoV1] at accepted
  | some memoKey =>
      cases resolved : resolvePayee p merchantWalletStr with
      | panicked => simp [memoV1, resolved] at accepted
      | rejected message => simp [memoV1, resolved] at accepted
      | accepted payee =>
          simp only [memoV1, resolved] at accepted
          cases scanned : scanInstructions p memoKey payee tx.accountKeys reference amount.toUInt64
              tx.instructions .start with
          | panicked => simp [scanned] at accepted
          | rejected message => simp [scanned] at accepted
          | accepted scan =>
              have sound := scan_sound p memoKey payee tx.accountKeys reference amount.toUInt64
                tx.instructions .start scan scanned
              simp only [scanned] at accepted
              split at accepted
              · exact absurd accepted (by simp)
              · next memo =>
                split at accepted
                · exact absurd accepted (by simp)
                · next transfer =>
                  have memo_hit := (sound.1 (by simpa using memo)).resolve_left (by simp [Scan.start])
                  have transfer_hit :=
                    (sound.2 (by simpa using transfer)).resolve_left (by simp [Scan.start])
                  exact ⟨⟨payee, resolved, transfer_hit⟩, memoKey, memoV1, memo_hit⟩

theorem scanDirect_sound (p : Platform) (payee : Payee) (sender : PublicKey)
    (keys : List PublicKey) (expected : UInt64) (instructions : List CompiledInstruction)
    (found : Bool)
    (accepted : scanDirect p payee sender keys expected instructions found = .accepted true) :
    found = true ∨ ∃ instruction ∈ instructions, TransferAt p keys payee expected instruction := by
  induction instructions generalizing found with
  | nil =>
      simp only [scanDirect, Verdict.accepted.injEq] at accepted
      exact .inl accepted
  | cons instruction rest ih =>
      have skip (went : scanDirect p payee sender keys expected rest found = .accepted true) :
          found = true ∨ ∃ i ∈ instruction :: rest, TransferAt p keys payee expected i := by
        rcases ih found went with flag | ⟨later, member, holds⟩
        · exact .inl flag
        · exact .inr ⟨later, List.mem_cons_of_mem _ member, holds⟩
      simp only [scanDirect] at accepted
      cases at_program : keys[instruction.programIDIndex]? with
      | none =>
          simp only [at_program] at accepted
          exact skip accepted
      | some programID =>
          simp only [at_program] at accepted
          split at accepted
          · next token =>
            subst token
            cases accounts : transferAccounts instruction with
            | none =>
                simp only [accounts] at accepted
                exact skip accepted
            | some positions =>
                obtain ⟨dest, owner⟩ := positions
                simp only [accounts] at accepted
                cases at_dest : keys[dest]? with
                | none => simp [at_dest] at accepted
                | some destKey =>
                    cases at_owner : keys[owner]? with
                    | none => simp [at_dest, at_owner] at accepted
                    | some ownerKey =>
                        simp only [at_dest, at_owner] at accepted
                        split at accepted
                        · exact absurd accepted (by simp)
                        · next stranger =>
                          split at accepted
                          · exact absurd accepted (by simp)
                          · split at accepted
                            · next hit =>
                              refine .inr ⟨instruction, List.mem_cons_self, dest, owner, ownerKey,
                                at_program, accounts, ?_, at_owner, stranger, hit.2⟩
                              rw [at_dest, hit.1]
                            · exact skip accepted
          · exact skip accepted

theorem verifyDirect_sound (p : Platform) (amount : Int64)
    (merchantWalletStr senderWalletStr : String) (tx : Transaction)
    (accepted : verifyDirect p amount merchantWalletStr senderWalletStr tx = .accepted ()) :
    PaysInto p tx merchantWalletStr amount := by
  unfold verifyDirect at accepted
  cases parsed : p.publicKeyFromBase58 senderWalletStr with
  | none => simp [parsed] at accepted
  | some sender =>
      cases resolved : resolvePayee p merchantWalletStr with
      | panicked => simp [parsed, resolved] at accepted
      | rejected message => simp [parsed, resolved] at accepted
      | accepted payee =>
          simp only [parsed, resolved] at accepted
          cases scanned : scanDirect p payee sender tx.accountKeys amount.toUInt64
              tx.instructions false with
          | panicked => simp [scanned] at accepted
          | rejected message => simp [scanned] at accepted
          | accepted found =>
              cases found with
              | false => simp [scanned] at accepted
              | true =>
                  have hit := scanDirect_sound p payee sender tx.accountKeys amount.toUInt64
                    tx.instructions false scanned
                  exact ⟨payee, resolved, hit.resolve_left (by simp)⟩

-- A decoded result is one the chain reports without error.
theorem decodeResult_ok (result : TransactionResult) (tx : Transaction)
    (decoded : decodeResult result = .ok tx) :
    (∃ txMeta, result.txMeta = some txMeta ∧ txMeta.err = none) ∧ result.transaction = .ok tx := by
  unfold decodeResult at decoded
  cases has_meta : result.txMeta with
  | none => simp [has_meta] at decoded
  | some txMeta =>
      cases failed : txMeta.err with
      | some text => simp [has_meta, failed] at decoded
      | none =>
          cases body : result.transaction with
          | error text => simp [has_meta, failed, body] at decoded
          | ok inner =>
              simp only [has_meta, failed, body, Except.ok.injEq] at decoded
              exact ⟨⟨txMeta, rfl, failed⟩, by rw [decoded]⟩

end Payknot
