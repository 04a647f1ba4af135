import Payknot.Scanning
import Payknot.History

/-! Exactly when the on-chain verifiers accept a transaction. Both loops are one kind of
loop over what an instruction is to them; they differ in what stops them. -/
namespace Payknot
open GoText Interleaving

section Instructions
variable (p : Platform) (keys : List PublicKey)

inductive Sight where
  | other
  /-- Its destination or authority is past the static account keys. -/
  | beyond
  | transfer (dest owner : PublicKey) (amount : UInt64)

def sight (instruction : CompiledInstruction) : Sight :=
  if keys[instruction.programIDIndex]? = some p.tokenProgramID then
    match transferAccounts instruction with
    | none => .other
    | some (dest, owner) =>
        match keys[dest]?, keys[owner]? with
        | some destKey, some ownerKey => .transfer destKey ownerKey (transferAmount instruction)
        | _, _ => .beyond
  else .other

/-- An instruction of the token program with opcode 3, 9 data bytes and 3 accounts, or
opcode 12, 9 data bytes and 4 accounts, or more. -/
def TransferLike (instruction : CompiledInstruction) : Prop :=
  keys[instruction.programIDIndex]? = some p.tokenProgramID ∧ 9 ≤ instruction.data.length ∧
    (instruction.data.head? = some 3 ∧ 3 ≤ instruction.accounts.length ∨
      instruction.data.head? = some 12 ∧ 4 ≤ instruction.accounts.length)

/-- A transfer-like instruction whose accounts are among the static keys. -/
structure Moves (instruction : CompiledInstruction) (dest owner : PublicKey) (amount : UInt64) : Prop where
  transfer : TransferLike p keys instruction
  positions : ∃ destIndex ownerIndex, transferAccounts instruction = some (destIndex, ownerIndex) ∧
    keys[destIndex]? = some dest ∧ keys[ownerIndex]? = some owner
  amount : transferAmount instruction = amount

variable {p keys} {instruction : CompiledInstruction}

theorem transferAccounts_isSome (instruction : CompiledInstruction) :
    (transferAccounts instruction).isSome = true ↔
    9 ≤ instruction.data.length ∧
      (instruction.data.head? = some 3 ∧ 3 ≤ instruction.accounts.length ∨
        instruction.data.head? = some 12 ∧ 4 ≤ instruction.accounts.length) := by
  unfold transferAccounts
  cases data : instruction.data with
  | nil => simp
  | cons opcode rest =>
      dsimp only
      rw [List.head?_cons, Option.some.injEq, Option.some.injEq]
      by_cases transfer : opcode = 3 ∧ 9 ≤ (opcode :: rest).length
      · rw [if_pos transfer]
        obtain ⟨rfl, long⟩ := transfer
        match instruction.accounts with
        | [] | [_] | [_, _] => simp
        | _ :: _ :: _ :: _ => simpa using long
      · rw [if_neg transfer]
        by_cases checked : opcode = 12 ∧ 9 ≤ (opcode :: rest).length
        · rw [if_pos checked]
          obtain ⟨rfl, long⟩ := checked
          match instruction.accounts with
          | [] | [_] | [_, _] | [_, _, _] => simp
          | _ :: _ :: _ :: _ :: _ => simpa using long
        · rw [if_neg checked]
          constructor
          · intro some_accounts
            cases some_accounts
          · rintro ⟨long, ⟨rfl, _⟩ | ⟨rfl, _⟩⟩
            · exact absurd ⟨rfl, long⟩ transfer
            · exact absurd ⟨rfl, long⟩ checked

-- Everything an instruction can be to the loops.
theorem sight_cases (p : Platform) (keys : List PublicKey) (instruction : CompiledInstruction) :
    (¬ TransferLike p keys instruction ∧ sight p keys instruction = .other) ∨
      ∃ destIndex ownerIndex, TransferLike p keys instruction ∧
        transferAccounts instruction = some (destIndex, ownerIndex) ∧
        ((∃ dest owner, keys[destIndex]? = some dest ∧ keys[ownerIndex]? = some owner ∧
            sight p keys instruction = .transfer dest owner (transferAmount instruction)) ∨
          (keys[destIndex]? = none ∨ keys[ownerIndex]? = none) ∧ sight p keys instruction = .beyond) := by
  unfold sight
  by_cases token : keys[instruction.programIDIndex]? = some p.tokenProgramID
  · rw [if_pos token]
    have shaped := transferAccounts_isSome instruction
    cases accounts : transferAccounts instruction with
    | none =>
        rw [accounts] at shaped
        exact .inl ⟨fun transfer => absurd (shaped.mpr transfer.2) (by simp), rfl⟩
    | some positions =>
        obtain ⟨destIndex, ownerIndex⟩ := positions
        rw [accounts] at shaped
        refine .inr ⟨destIndex, ownerIndex, ⟨token, shaped.mp rfl⟩, rfl, ?_⟩
        dsimp only
        cases keys[destIndex]? with
        | none => exact .inr ⟨.inl rfl, rfl⟩
        | some dest =>
            cases keys[ownerIndex]? with
            | none => exact .inr ⟨.inr rfl, rfl⟩
            | some owner => exact .inl ⟨dest, owner, rfl, rfl, rfl⟩
  · rw [if_neg token]
    exact .inl ⟨fun transfer => token transfer.1, rfl⟩

theorem sight_transfer {dest owner : PublicKey} {amount : UInt64} :
    sight p keys instruction = .transfer dest owner amount ↔ Moves p keys instruction dest owner amount := by
  rcases sight_cases p keys instruction with ⟨not_transfer, seen⟩ |
    ⟨destIndex, ownerIndex, transfer, accounts, ⟨destKey, ownerKey, at_dest, at_owner, seen⟩ | ⟨missing, seen⟩⟩
  · rw [seen]
    constructor
    · rintro ⟨⟩
    · exact fun moves => absurd moves.transfer not_transfer
  · rw [seen]
    constructor
    · rintro ⟨⟩
      exact ⟨transfer, ⟨destIndex, ownerIndex, accounts, at_dest, at_owner⟩, rfl⟩
    · intro moves
      obtain ⟨_, _, same, found, found'⟩ := moves.positions
      rw [accounts] at same
      cases same
      rw [at_dest] at found
      rw [at_owner] at found'
      cases found
      cases found'
      rw [moves.amount]
  · rw [seen]
    constructor
    · rintro ⟨⟩
    · intro moves
      obtain ⟨_, _, same, found, found'⟩ := moves.positions
      rw [accounts] at same
      cases same
      simp [found, found'] at missing

/-- A transfer-like instruction of which an account is past the static keys. -/
def Beyond (p : Platform) (keys : List PublicKey) (instruction : CompiledInstruction) : Prop :=
  TransferLike p keys instruction ∧ ∃ destIndex ownerIndex,
    transferAccounts instruction = some (destIndex, ownerIndex) ∧
      (keys.length ≤ destIndex ∨ keys.length ≤ ownerIndex)

theorem sight_beyond : sight p keys instruction = .beyond ↔ Beyond p keys instruction := by
  rcases sight_cases p keys instruction with ⟨not_transfer, seen⟩ |
    ⟨destIndex, ownerIndex, transfer, accounts, ⟨destKey, ownerKey, at_dest, at_owner, seen⟩ | ⟨missing, seen⟩⟩
  · rw [seen]
    constructor
    · rintro ⟨⟩
    · exact fun beyond => absurd beyond.1 not_transfer
  · rw [seen]
    constructor
    · rintro ⟨⟩
    · rintro ⟨_, _, _, same, missing⟩
      rw [accounts] at same
      cases same
      simp only [← List.getElem?_eq_none_iff, at_dest, at_owner, reduceCtorEq, or_self] at missing
  · rw [seen]
    constructor
    · intro _
      rw [List.getElem?_eq_none_iff, List.getElem?_eq_none_iff] at missing
      exact ⟨transfer, destIndex, ownerIndex, accounts, missing⟩
    · exact fun _ => rfl

end Instructions

section Loops
variable (p : Platform) (memoV1 : PublicKey) (payee : Payee) (sender : PublicKey) (keys : List PublicKey)
variable (reference : String) (expected : UInt64)

inductive Stop where
  | outOfRange
  | refused (message : String)

def Stop.verdict {Value : Type} : Stop → Verdict Value
  | .outOfRange => .panicked
  | .refused message => .rejected message

/-- A loop that has stopped, or goes on to `next` with its last state. -/
def concluded {State Value : Type} (next : State → Verdict Value) : Except Stop State → Verdict Value
  | .error reason => reason.verdict
  | .ok last => next last

def stopPayment (instruction : CompiledInstruction) : Option Stop :=
  match sight p keys instruction with
  | .other => none
  | .beyond => some .outOfRange
  | .transfer _ owner _ =>
      if owner = payee.merchant then some (.refused "security violation: merchant self-payment") else none

def stopDirect (instruction : CompiledInstruction) : Option Stop :=
  match sight p keys instruction with
  | .other => none
  | .beyond => some .outOfRange
  | .transfer _ owner _ =>
      if owner = payee.merchant then some (.refused "security violation: merchant self-payment")
      else if owner ≠ sender then some (.refused "security violation: sender mismatch")
      else none

/-- The authority of a transfer of the expected amount into the payee's token account. -/
def paidBy (instruction : CompiledInstruction) : Option PublicKey :=
  match sight p keys instruction with
  | .transfer dest owner amount => if dest = payee.ata ∧ amount = expected then some owner else none
  | _ => none

def mentions (instruction : CompiledInstruction) : Bool :=
  keys[instruction.programIDIndex]?.any fun programID =>
    isMemo p memoV1 programID && containsText instruction.data reference

def Scan.take (scan : Scan) (instruction : CompiledInstruction) : Scan where
  memoFound := scan.memoFound || mentions p memoV1 keys reference instruction
  transferFound := scan.transferFound || (paidBy p payee keys expected instruction).isSome
  senderWallet := ((paidBy p payee keys expected instruction).map p.publicKeyString).getD scan.senderWallet

def takeDirect (found : Bool) (instruction : CompiledInstruction) : Bool :=
  found || (paidBy p payee keys expected instruction).isSome

-- The loop of the session verifier searches for what stops it and folds the rest.
theorem scanInstructions_eq (instructions : List CompiledInstruction) (scan : Scan) :
    scanInstructions p memoV1 payee keys reference expected instructions scan =
      concluded .accepted (Scanning.run (stopPayment p payee keys)
        (Scan.take p memoV1 payee keys reference expected) instructions scan) := by
  induction instructions generalizing scan with
  | nil => rfl
  | cons instruction rest ih =>
      have memo_step {programID : PublicKey} (at_program : keys[instruction.programIDIndex]? = some programID) :
          scan.memo p memoV1 reference programID instruction =
            { scan with memoFound := scan.memoFound || mentions p memoV1 keys reference instruction } := by
        unfold Scan.memo mentions
        rw [at_program, Option.any_some]
        split
        · next hit => rw [hit, Bool.or_true]
        · next miss => rw [Bool.eq_false_of_not_eq_true miss, Bool.or_false]
      rw [scanInstructions, Scanning.run]
      cases at_program : keys[instruction.programIDIndex]? with
      | none =>
          have nothing : sight p keys instruction = .other := by simp [sight, at_program]
          have same : Scan.take p memoV1 payee keys reference expected scan instruction = scan := by
            simp [Scan.take, mentions, paidBy, nothing, at_program]
          simp only [stopPayment, nothing, same]
          exact ih scan
      | some programID =>
          dsimp only
          rw [memo_step at_program]
          by_cases token : programID = p.tokenProgramID
          · rw [if_pos token]
            subst token
            cases accounts : transferAccounts instruction with
            | none =>
                have nothing : sight p keys instruction = .other := by simp [sight, at_program, accounts]
                simp only [stopPayment, nothing]
                rw [ih]
                simp [Scan.take, paidBy, nothing]
            | some positions =>
                obtain ⟨destIndex, ownerIndex⟩ := positions
                dsimp only
                cases at_dest : keys[destIndex]? with
                | none => simp [stopPayment, sight, at_program, accounts, at_dest, concluded, Stop.verdict]
                | some dest =>
                    cases at_owner : keys[ownerIndex]? with
                    | none => simp [stopPayment, sight, at_program, accounts, at_dest, at_owner, concluded, Stop.verdict]
                    | some owner =>
                        have seen : sight p keys instruction =
                            .transfer dest owner (transferAmount instruction) := by
                          simp [sight, at_program, accounts, at_dest, at_owner]
                        simp only [stopPayment, seen]
                        by_cases self : owner = payee.merchant
                        · rw [if_pos self, if_pos self]
                          rfl
                        · rw [if_neg self, if_neg self]
                          by_cases hit : dest = payee.ata ∧ transferAmount instruction = expected
                          · rw [if_pos hit, ih]
                            simp [Scan.take, paidBy, seen, hit]
                          · rw [if_neg hit, ih]
                            simp [Scan.take, paidBy, seen, hit]
          · have nothing : sight p keys instruction = .other := by simp [sight, at_program, token]
            rw [if_neg token, ih]
            simp [stopPayment, nothing, Scan.take, paidBy]

theorem scanDirect_eq (instructions : List CompiledInstruction) (found : Bool) :
    scanDirect p payee sender keys expected instructions found =
      concluded .accepted (Scanning.run (stopDirect p payee sender keys)
        (takeDirect p payee keys expected) instructions found) := by
  induction instructions generalizing found with
  | nil => rfl
  | cons instruction rest ih =>
      rw [scanDirect, Scanning.run]
      cases at_program : keys[instruction.programIDIndex]? with
      | none =>
          have nothing : sight p keys instruction = .other := by simp [sight, at_program]
          simp only [stopDirect, takeDirect, paidBy, nothing, Option.isSome_none, Bool.or_false]
          exact ih found
      | some programID =>
          dsimp only
          by_cases token : programID = p.tokenProgramID
          · rw [if_pos token]
            subst token
            cases accounts : transferAccounts instruction with
            | none =>
                have nothing : sight p keys instruction = .other := by simp [sight, at_program, accounts]
                simp only [stopDirect, takeDirect, paidBy, nothing, Option.isSome_none, Bool.or_false]
                exact ih found
            | some positions =>
                obtain ⟨destIndex, ownerIndex⟩ := positions
                dsimp only
                cases at_dest : keys[destIndex]? with
                | none => simp [stopDirect, sight, at_program, accounts, at_dest, concluded, Stop.verdict]
                | some dest =>
                    cases at_owner : keys[ownerIndex]? with
                    | none => simp [stopDirect, sight, at_program, accounts, at_dest, at_owner, concluded, Stop.verdict]
                    | some owner =>
                        have seen : sight p keys instruction =
                            .transfer dest owner (transferAmount instruction) := by
                          simp [sight, at_program, accounts, at_dest, at_owner]
                        simp only [stopDirect, seen]
                        by_cases self : owner = payee.merchant
                        · rw [if_pos self, if_pos self]
                          rfl
                        · rw [if_neg self, if_neg self]
                          by_cases stranger : owner ≠ sender
                          · rw [if_pos stranger, if_pos stranger]
                            rfl
                          · rw [if_neg stranger, if_neg stranger]
                            by_cases hit : dest = payee.ata ∧ transferAmount instruction = expected
                            · rw [if_pos hit, ih]
                              simp [takeDirect, paidBy, seen, hit]
                            · rw [if_neg hit, ih]
                              simp [takeDirect, paidBy, seen, hit]
          · have nothing : sight p keys instruction = .other := by simp [sight, at_program, token]
            rw [if_neg token, ih]
            simp [stopDirect, nothing, takeDirect, paidBy]

end Loops

section Acceptance
variable {p : Platform} {memoV1 sender : PublicKey} {payee : Payee} {keys : List PublicKey} {reference : String}
variable {expected : UInt64} {instruction : CompiledInstruction} {tx : Transaction}

theorem paidBy_iff {owner : PublicKey} :
    paidBy p payee keys expected instruction = some owner ↔ Moves p keys instruction payee.ata owner expected := by
  rw [← sight_transfer]
  unfold paidBy
  cases sight p keys instruction with
  | other => simp
  | beyond => simp
  | transfer dest authority amount =>
      simp only [Option.ite_none_right_eq_some, Option.some.injEq, Sight.transfer.injEq]
      constructor
      · rintro ⟨⟨rfl, rfl⟩, rfl⟩
        exact ⟨rfl, rfl, rfl⟩
      · rintro ⟨rfl, rfl, rfl⟩
        exact ⟨⟨rfl, rfl⟩, rfl⟩

theorem mentions_iff : mentions p memoV1 keys reference instruction = true ↔
    MemoAt p keys memoV1 reference instruction := by
  unfold mentions MemoAt
  simp only [Option.any_eq_true, Bool.and_eq_true]

/-- The merchant is the authority of the transfer-like instruction. -/
def SelfPaid (p : Platform) (payee : Payee) (keys : List PublicKey) (instruction : CompiledInstruction) : Prop :=
  ∃ dest amount, Moves p keys instruction dest payee.merchant amount

theorem stopPayment_none_iff : stopPayment p payee keys instruction = none ↔
    ¬ Beyond p keys instruction ∧ ¬ SelfPaid p payee keys instruction := by
  simp only [SelfPaid, ← sight_beyond, ← sight_transfer]
  unfold stopPayment
  cases sight p keys instruction <;> simp

theorem stopPayment_beyond_iff :
    stopPayment p payee keys instruction = some .outOfRange ↔ Beyond p keys instruction := by
  rw [← sight_beyond]
  unfold stopPayment
  cases sight p keys instruction <;> simp

theorem stopPayment_refused_iff {message : String} :
    stopPayment p payee keys instruction = some (.refused message) ↔
      message = "security violation: merchant self-payment" ∧ SelfPaid p payee keys instruction := by
  simp only [SelfPaid, ← sight_transfer]
  unfold stopPayment
  cases sight p keys instruction with
  | other => simp
  | beyond => simp
  | transfer dest owner amount =>
      simp only [Option.ite_none_right_eq_some, Option.some.injEq, Stop.refused.injEq, Sight.transfer.injEq]
      constructor
      · rintro ⟨rfl, rfl⟩
        exact ⟨rfl, dest, amount, rfl, rfl, rfl⟩
      · rintro ⟨rfl, _, _, _, rfl, _⟩
        exact ⟨rfl, rfl⟩

theorem stopDirect_none_iff : stopDirect p payee sender keys instruction = none ↔
    stopPayment p payee keys instruction = none ∧
      ∀ dest owner amount, Moves p keys instruction dest owner amount → owner = sender := by
  simp only [← sight_transfer]
  unfold stopDirect stopPayment
  cases sight p keys instruction with
  | other => simp
  | beyond => simp
  | transfer dest owner amount =>
      by_cases self : owner = payee.merchant
      · simp [self]
      · by_cases same : owner = sender <;> simp [self, same]

/-- What stops the session verifier stops the direct one, and a missing index alike. -/
theorem stopDirect_beyond_iff :
    stopDirect p payee sender keys instruction = some .outOfRange ↔ Beyond p keys instruction := by
  rw [← sight_beyond]
  unfold stopDirect
  cases sight p keys instruction with
  | other => simp
  | beyond => simp
  | transfer dest owner amount =>
      by_cases self : owner = payee.merchant
      · simp [self]
      · by_cases same : owner = sender <;> simp [self, same]

/-- The transfer part of an acceptable transaction: one transfer of the expected amount into
the payee's account, and none that the merchant authorises. -/
structure TransferPart (p : Platform) (payee : Payee) (tx : Transaction) (expected : UInt64) : Prop where
  paid : ∃ instruction ∈ tx.instructions, ∃ owner, Moves p tx.accountKeys instruction payee.ata owner expected
  foreign : ∀ instruction ∈ tx.instructions, ¬ SelfPaid p payee tx.accountKeys instruction

/-- The account of every transfer-like instruction is a static key. -/
def Static (p : Platform) (tx : Transaction) : Prop :=
  ∀ instruction ∈ tx.instructions, ¬ Beyond p tx.accountKeys instruction

/-- The authority of the last transfer of the expected amount into the payee's account. -/
def LastPayer (p : Platform) (payee : Payee) (tx : Transaction) (expected : UInt64) (owner : PublicKey) : Prop :=
  ∃ before last after, tx.instructions = before ++ last :: after ∧
    Moves p tx.accountKeys last payee.ata owner expected ∧
    ∀ later ∈ after, ∀ other, ¬ Moves p tx.accountKeys later payee.ata other expected

theorem stopPayment_all_none : (∀ instruction ∈ tx.instructions, stopPayment p payee tx.accountKeys instruction = none) ↔
    Static p tx ∧ ∀ instruction ∈ tx.instructions, ¬ SelfPaid p payee tx.accountKeys instruction := by
  simp only [stopPayment_none_iff, Static]
  exact forall₂_and

theorem any_paidBy : (tx.instructions.any fun i => (paidBy p payee tx.accountKeys expected i).isSome) = true ↔
    ∃ instruction ∈ tx.instructions, ∃ owner, Moves p tx.accountKeys instruction payee.ata owner expected := by
  simp only [List.any_eq_true, Option.isSome_iff_exists, paidBy_iff]

-- What the loop of the session verifier has found when it gets to its end.
theorem take_memo (p : Platform) (memoV1 : PublicKey) (payee : Payee) (reference : String) (expected : UInt64)
    (tx : Transaction) :
    (tx.instructions.foldl (Scan.take p memoV1 payee tx.accountKeys reference expected) .start).memoFound = true ↔
      ∃ instruction ∈ tx.instructions, MemoAt p tx.accountKeys memoV1 reference instruction := by
  have raised := Scanning.foldl_flag Scan.memoFound
    (Scan.take p memoV1 payee tx.accountKeys reference expected) (fun _ _ => rfl) tx.instructions .start
  change _ = (false || _) at raised
  rw [raised, Bool.false_or, List.any_eq_true]
  simp only [mentions_iff]

theorem take_transfer (p : Platform) (memoV1 : PublicKey) (payee : Payee) (reference : String) (expected : UInt64)
    (tx : Transaction) :
    (tx.instructions.foldl (Scan.take p memoV1 payee tx.accountKeys reference expected) .start).transferFound =
        true ↔
      ∃ instruction ∈ tx.instructions, ∃ owner, Moves p tx.accountKeys instruction payee.ata owner expected := by
  have raised := Scanning.foldl_flag Scan.transferFound
    (Scan.take p memoV1 payee tx.accountKeys reference expected) (fun _ _ => rfl) tx.instructions .start
  change _ = (false || _) at raised
  rw [raised, Bool.false_or, any_paidBy]

-- Nothing of the expected amount was paid, or its last payer is the sender.
theorem take_sender (p : Platform) (memoV1 : PublicKey) (payee : Payee) (reference : String) (expected : UInt64)
    (tx : Transaction) :
    (∀ instruction ∈ tx.instructions, paidBy p payee tx.accountKeys expected instruction = none) ∨
      ∃ owner, LastPayer p payee tx expected owner ∧
        (tx.instructions.foldl (Scan.take p memoV1 payee tx.accountKeys reference expected)
          .start).senderWallet = p.publicKeyString owner := by
  have last := Scanning.foldl_last Scan.senderWallet
    (fun i => (paidBy p payee tx.accountKeys expected i).map p.publicKeyString)
    (Scan.take p memoV1 payee tx.accountKeys reference expected) (fun _ _ => rfl) tx.instructions .start
  simp only [Option.map_eq_none_iff, Option.map_eq_some_iff] at last
  rcases last with ⟨nobody, _⟩ | ⟨before, paying, after, _, split, ⟨owner, by_owner, rfl⟩, nobody, wallet⟩
  · exact .inl nobody
  · refine .inr ⟨owner, ⟨before, paying, after, split, paidBy_iff.mp by_owner, ?_⟩, wallet⟩
    intro later among other moves
    rw [← paidBy_iff, nobody later among] at moves
    cases moves

theorem LastPayer.unique {owner other : PublicKey} (payer : LastPayer p payee tx expected owner)
    (payer' : LastPayer p payee tx expected other) : owner = other := by
  obtain ⟨before, last, after, split, moves, nobody⟩ := payer
  obtain ⟨before', last', after', split', moves', nobody'⟩ := payer'
  rw [split, List.append_eq_append_iff] at split'
  rcases split' with ⟨between, _, same⟩ | ⟨between, _, same⟩
  · cases between with
    | nil =>
        obtain ⟨rfl, rfl⟩ := List.cons.inj same
        rw [← paidBy_iff] at moves moves'
        exact Option.some.inj (moves.symm.trans moves')
    | cons first between =>
        obtain ⟨rfl, rfl⟩ := List.cons.inj same
        exact absurd moves' (nobody last' (List.mem_append_right _ List.mem_cons_self) other)
  · cases between with
    | nil =>
        obtain ⟨rfl, rfl⟩ := List.cons.inj same
        rw [← paidBy_iff] at moves moves'
        exact Option.some.inj (moves.symm.trans moves')
    | cons first between =>
        obtain ⟨rfl, rfl⟩ := List.cons.inj same
        exact absurd moves (nobody' last (List.mem_append_right _ List.mem_cons_self) owner)

end Acceptance

section Verdicts
variable {p : Platform} {memoV1 : PublicKey} {payee : Payee} {reference merchantWalletStr senderWalletStr : String}
variable {amount : Int64} {tx : Transaction}

/-- The addresses of a verification are valid and the token account is derived. -/
structure Resolved (p : Platform) (merchantWalletStr : String) (memoV1 : PublicKey) (payee : Payee) : Prop where
  memo : p.publicKeyFromBase58 memoProgramV1Text = some memoV1
  payee : resolvePayee p merchantWalletStr = .accepted payee

/-- The end of the session verifier, from the last state of its loop. -/
def concludePayment (p : Platform) (payee : Payee) (reference : String) (tx : Transaction) (scan : Scan) :
    Verdict String :=
  if !scan.memoFound then .rejected ("payment verification failed: memo '" ++ reference ++ "' not found")
  else if !scan.transferFound then .rejected "payment verification failed: no matching SPL transfer found"
  else .accepted (inferSender p payee tx scan.senderWallet)

theorem verifyPayment_eq (resolved : Resolved p merchantWalletStr memoV1 payee) :
    verifyPayment p reference amount merchantWalletStr tx = concluded (concludePayment p payee reference tx)
      (Scanning.run (stopPayment p payee tx.accountKeys)
        (Scan.take p memoV1 payee tx.accountKeys reference amount.toUInt64) tx.instructions .start) := by
  unfold verifyPayment
  rw [resolved.memo, resolved.payee]
  dsimp only
  rw [scanInstructions_eq]
  cases Scanning.run (stopPayment p payee tx.accountKeys)
      (Scan.take p memoV1 payee tx.accountKeys reference amount.toUInt64) tx.instructions .start with
  | ok scan => rfl
  | error reason => cases reason <;> rfl

theorem verifyDirect_eq (resolved : resolvePayee p merchantWalletStr = .accepted payee) {sender : PublicKey}
    (parsed : p.publicKeyFromBase58 senderWalletStr = some sender) :
    verifyDirect p amount merchantWalletStr senderWalletStr tx = concluded
      (fun found => if found then .accepted ()
        else .rejected "payment verification failed: no matching SPL transfer found")
      (Scanning.run (stopDirect p payee sender tx.accountKeys)
        (takeDirect p payee tx.accountKeys amount.toUInt64) tx.instructions false) := by
  unfold verifyDirect
  rw [parsed, resolved]
  dsimp only
  rw [scanDirect_eq]
  cases Scanning.run (stopDirect p payee sender tx.accountKeys)
      (takeDirect p payee tx.accountKeys amount.toUInt64) tx.instructions false with
  | ok found => cases found <;> rfl
  | error reason => cases reason <;> rfl

-- The session verifier accepts, and which sender it answers.
theorem verifyPayment_accepted_iff (resolved : Resolved p merchantWalletStr memoV1 payee) {sender : String} :
    verifyPayment p reference amount merchantWalletStr tx = .accepted sender ↔
      Static p tx ∧ TransferPart p payee tx amount.toUInt64 ∧
      (∃ instruction ∈ tx.instructions, MemoAt p tx.accountKeys memoV1 reference instruction) ∧
      ∃ owner, LastPayer p payee tx amount.toUInt64 owner ∧
        sender = inferSender p payee tx (p.publicKeyString owner) := by
  have memo_found := take_memo p memoV1 payee reference amount.toUInt64 tx
  have transfer_found := take_transfer p memoV1 payee reference amount.toUInt64 tx
  have wallet := take_sender p memoV1 payee reference amount.toUInt64 tx
  rw [verifyPayment_eq resolved]
  cases ran : Scanning.run (stopPayment p payee tx.accountKeys)
      (Scan.take p memoV1 payee tx.accountKeys reference amount.toUInt64) tx.instructions .start with
  | error reason =>
      obtain ⟨before, instruction, after, split, stopped, _⟩ := Scanning.run_error_iff.mp ran
      have present : instruction ∈ tx.instructions := by
        rw [split]
        exact List.mem_append_right _ List.mem_cons_self
      constructor
      · cases reason <;> rintro ⟨⟩
      · rintro ⟨static, transfers, _⟩
        have passed := (stopPayment_all_none.mpr ⟨static, transfers.foreign⟩) instruction present
        rw [stopped] at passed
        cases passed
  | ok scan =>
      obtain ⟨passed, rfl⟩ := Scanning.run_ok_iff.mp ran
      obtain ⟨static, foreign⟩ := stopPayment_all_none.mp passed
      change concludePayment p payee reference tx _ = .accepted sender ↔ _
      unfold concludePayment
      constructor
      · intro accepted
        split at accepted
        · cases accepted
        · next memo =>
          split at accepted
          · cases accepted
          · next transfer =>
            rw [Bool.not_eq_true, Bool.not_eq_false'] at memo transfer
            have paid := transfer_found.mp transfer
            rcases wallet with nobody | ⟨owner, payer, wallet⟩
            · obtain ⟨instruction, present, owner, moves⟩ := paid
              rw [← paidBy_iff, nobody instruction present] at moves
              cases moves
            · refine ⟨static, ⟨paid, foreign⟩, memo_found.mp memo, owner, payer, ?_⟩
              rw [← wallet]
              exact (Verdict.accepted.inj accepted).symm
      · rintro ⟨_, transfers, memo, owner, payer, rfl⟩
        rw [memo_found.mpr memo, transfer_found.mpr transfers.paid]
        rcases wallet with nobody | ⟨other, payer', wallet⟩
        · obtain ⟨instruction, present, _, moves⟩ := transfers.paid
          rw [← paidBy_iff, nobody instruction present] at moves
          cases moves
        · rw [wallet, payer'.unique payer]
          rfl

theorem verifyDirect_accepted_iff (resolved : resolvePayee p merchantWalletStr = .accepted payee)
    {sender : PublicKey} (parsed : p.publicKeyFromBase58 senderWalletStr = some sender) :
    verifyDirect p amount merchantWalletStr senderWalletStr tx = .accepted () ↔
      Static p tx ∧ TransferPart p payee tx amount.toUInt64 ∧
      ∀ instruction ∈ tx.instructions, ∀ dest owner amount,
        Moves p tx.accountKeys instruction dest owner amount → owner = sender := by
  rw [verifyDirect_eq resolved parsed]
  have flagged := Scanning.foldl_flag id (takeDirect p payee tx.accountKeys amount.toUInt64)
    (fun _ _ => rfl) tx.instructions false
  rw [id, id, Bool.false_or] at flagged
  cases ran : Scanning.run (stopDirect p payee sender tx.accountKeys)
      (takeDirect p payee tx.accountKeys amount.toUInt64) tx.instructions false with
  | error reason =>
      obtain ⟨before, instruction, after, split, stopped, _⟩ := Scanning.run_error_iff.mp ran
      have present : instruction ∈ tx.instructions := by
        rw [split]
        exact List.mem_append_right _ List.mem_cons_self
      constructor
      · cases reason <;> rintro ⟨⟩
      · rintro ⟨static, transfers, only⟩
        have passed := stopDirect_none_iff.mpr
          ⟨(stopPayment_all_none.mpr ⟨static, transfers.foreign⟩) instruction present, only instruction present⟩
        rw [stopped] at passed
        cases passed
  | ok found =>
      obtain ⟨passed, rfl⟩ := Scanning.run_ok_iff.mp ran
      simp only [stopDirect_none_iff] at passed
      obtain ⟨static, foreign⟩ := stopPayment_all_none.mp fun i present => (passed i present).1
      change (if tx.instructions.foldl (takeDirect p payee tx.accountKeys amount.toUInt64) false = true
        then Verdict.accepted () else _) = .accepted () ↔ _
      rw [flagged]
      constructor
      · intro accepted
        split at accepted
        · next paid => exact ⟨static, ⟨any_paidBy.mp paid, foreign⟩, fun i present => (passed i present).2⟩
        · cases accepted
      · rintro ⟨_, transfers, _⟩
        rw [if_pos (any_paidBy.mpr transfers.paid)]

-- Either verifier panics at a missing index that nothing has stopped it before.
theorem verifyPayment_panicked_iff (resolved : Resolved p merchantWalletStr memoV1 payee) :
    verifyPayment p reference amount merchantWalletStr tx = .panicked ↔
      ∃ before instruction after, tx.instructions = before ++ instruction :: after ∧
        Beyond p tx.accountKeys instruction ∧
        ∀ earlier ∈ before, ¬ Beyond p tx.accountKeys earlier ∧ ¬ SelfPaid p payee tx.accountKeys earlier := by
  rw [verifyPayment_eq resolved]
  have searched : Scanning.run (stopPayment p payee tx.accountKeys)
      (Scan.take p memoV1 payee tx.accountKeys reference amount.toUInt64) tx.instructions .start =
        .error .outOfRange ↔ _ := Scanning.run_error_iff
  simp only [stopPayment_beyond_iff, stopPayment_none_iff] at searched
  rw [← searched]
  cases Scanning.run (stopPayment p payee tx.accountKeys)
      (Scan.take p memoV1 payee tx.accountKeys reference amount.toUInt64) tx.instructions .start with
  | error reason => cases reason <;> simp [concluded, Stop.verdict]
  | ok scan =>
      simp only [concluded, concludePayment, reduceCtorEq, iff_false]
      repeat' split
      all_goals rintro ⟨⟩

theorem verifyDirect_panicked_iff (resolved : resolvePayee p merchantWalletStr = .accepted payee)
    {sender : PublicKey} (parsed : p.publicKeyFromBase58 senderWalletStr = some sender) :
    verifyDirect p amount merchantWalletStr senderWalletStr tx = .panicked ↔
      ∃ before instruction after, tx.instructions = before ++ instruction :: after ∧
        Beyond p tx.accountKeys instruction ∧
        ∀ earlier ∈ before, stopDirect p payee sender tx.accountKeys earlier = none := by
  rw [verifyDirect_eq resolved parsed]
  have searched : Scanning.run (stopDirect p payee sender tx.accountKeys)
      (takeDirect p payee tx.accountKeys amount.toUInt64) tx.instructions false =
        .error .outOfRange ↔ _ := Scanning.run_error_iff
  simp only [stopDirect_beyond_iff] at searched
  rw [← searched]
  cases Scanning.run (stopDirect p payee sender tx.accountKeys)
      (takeDirect p payee tx.accountKeys amount.toUInt64) tx.instructions false with
  | error reason => cases reason <;> simp [concluded, Stop.verdict]
  | ok found => cases found <;> simp [concluded]

def Verdict.outcome {Value : Type} : Verdict Value → Verdict Unit
  | .accepted _ => .accepted ()
  | .rejected message => .rejected message
  | .panicked => .panicked

-- What becomes of a transaction whose indexes are in range, up to the sender.
theorem verifyPayment_outcome (resolved : Resolved p merchantWalletStr memoV1 payee) (static : Static p tx) :
    (verifyPayment p reference amount merchantWalletStr tx).outcome =
      if tx.instructions.any fun i => (stopPayment p payee tx.accountKeys i).isSome then
        .rejected "security violation: merchant self-payment"
      else if !tx.instructions.any (mentions p memoV1 tx.accountKeys reference) then
        .rejected ("payment verification failed: memo '" ++ reference ++ "' not found")
      else if !tx.instructions.any (fun i => (paidBy p payee tx.accountKeys amount.toUInt64 i).isSome) then
        .rejected "payment verification failed: no matching SPL transfer found"
      else .accepted () := by
  rw [verifyPayment_eq resolved]
  cases ran : Scanning.run (stopPayment p payee tx.accountKeys)
      (Scan.take p memoV1 payee tx.accountKeys reference amount.toUInt64) tx.instructions .start with
  | error reason =>
      obtain ⟨before, instruction, after, split, stopped, _⟩ := Scanning.run_error_iff.mp ran
      have present : instruction ∈ tx.instructions := by
        rw [split]
        exact List.mem_append_right _ List.mem_cons_self
      rw [if_pos (List.any_eq_true.mpr ⟨instruction, present, by rw [stopped]; rfl⟩)]
      cases reason with
      | outOfRange => exact absurd (stopPayment_beyond_iff.mp stopped) (static instruction present)
      | refused message =>
          rw [(stopPayment_refused_iff.mp stopped).1]
          rfl
  | ok scan =>
      obtain ⟨passed, rfl⟩ := Scanning.run_ok_iff.mp ran
      have nothing : ¬ (tx.instructions.any fun i => (stopPayment p payee tx.accountKeys i).isSome) = true := by
        rw [List.any_eq_true]
        rintro ⟨i, present, stopped⟩
        rw [passed i present] at stopped
        cases stopped
      have memo := Scanning.foldl_flag Scan.memoFound
        (Scan.take p memoV1 payee tx.accountKeys reference amount.toUInt64) (fun _ _ => rfl)
        tx.instructions .start
      have transfer := Scanning.foldl_flag Scan.transferFound
        (Scan.take p memoV1 payee tx.accountKeys reference amount.toUInt64) (fun _ _ => rfl)
        tx.instructions .start
      rw [if_neg nothing]
      simp only [concluded, concludePayment]
      rw [memo, transfer]
      simp only [Scan.start, Bool.false_or]
      repeat' split
      all_goals rfl

-- The order of the instructions does not matter.
theorem outcome_perm (resolved : Resolved p merchantWalletStr memoV1 payee) (static : Static p tx)
    {permuted : Transaction} (keys : permuted.accountKeys = tx.accountKeys)
    (same : permuted.instructions.Perm tx.instructions) :
    (verifyPayment p reference amount merchantWalletStr permuted).outcome =
      (verifyPayment p reference amount merchantWalletStr tx).outcome := by
  have static' : Static p permuted := by
    intro i present
    rw [keys]
    exact static i (same.mem_iff.mp present)
  rw [verifyPayment_outcome resolved static, verifyPayment_outcome resolved static', keys]
  rw [same.any_eq, same.any_eq, same.any_eq]

end Verdicts

end Payknot
