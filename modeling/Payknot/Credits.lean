import Payknot.TokenLedger
import Payknot.VerifiedPayments

/-! What an accepted transaction does to the merchant's token account, when its token
effects are its top-level transfers. The verifier looks at destinations and authorities;
the token program moves tokens from a source, for its owner or its delegate. -/
namespace Payknot
open GoText Interleaving TokenLedger

section Effects
variable (p : Platform) (tx : Transaction) (loaded : List PublicKey)

inductive TokenEffect where
  | other
  /-- The token program fails, and the transaction with it. -/
  | malformed
  | transfer (transfer : Transfer PublicKey)

/-- The accounts of an instruction; `loaded` are those of the address lookup tables. -/
def accountAt (index : Nat) : Option PublicKey := (tx.accountKeys ++ loaded)[index]?

def movesBetween (source dest authority : Nat) (instruction : CompiledInstruction) : TokenEffect :=
  match accountAt tx loaded source, accountAt tx loaded dest, accountAt tx loaded authority with
  | some source, some dest, some authority =>
      .transfer ⟨source, dest, authority, (transferAmount instruction).toNat⟩
  | _, _, _ => .malformed

/-- Transfer has opcode 3, an amount and the accounts source, destination and authority;
TransferChecked has opcode 12, the decimals after the amount and the mint after the source. -/
def tokenEffect (instruction : CompiledInstruction) : TokenEffect :=
  if tx.accountKeys[instruction.programIDIndex]? = some p.tokenProgramID then
    match instruction.data with
    | [] => .malformed
    | opcode :: _ =>
        if opcode = 3 then
          match instruction.accounts with
          | source :: dest :: authority :: _ =>
              if instruction.data.length < 9 then .malformed
              else movesBetween tx loaded source dest authority instruction
          | _ => .malformed
        else if opcode = 12 then
          match instruction.accounts with
          | source :: _ :: dest :: authority :: _ =>
              if instruction.data.length < 10 then .malformed
              else movesBetween tx loaded source dest authority instruction
          | _ => .malformed
        else .other
  else .other

/-- The transfers of a list of instructions; `none` where the token program fails on one. -/
def transfersOf : List CompiledInstruction → Option (List (Transfer PublicKey))
  | [] => some []
  | instruction :: rest =>
      match tokenEffect p tx loaded instruction with
      | .other => transfersOf rest
      | .malformed => none
      | .transfer transfer => (transfersOf rest).map (transfer :: ·)

end Effects

section Reading
variable {p : Platform} {tx : Transaction} {loaded : List PublicKey} {instruction : CompiledInstruction}

theorem movesBetween_static {source dest authority : Nat} {destKey authorityKey : PublicKey}
    (at_dest : tx.accountKeys[dest]? = some destKey) (at_authority : tx.accountKeys[authority]? = some authorityKey) :
    movesBetween tx loaded source dest authority instruction = .malformed ∨
      ∃ sourceKey, movesBetween tx loaded source dest authority instruction =
        .transfer ⟨sourceKey, destKey, authorityKey, (transferAmount instruction).toNat⟩ := by
  have static {index : Nat} {key : PublicKey} (found : tx.accountKeys[index]? = some key) :
      accountAt tx loaded index = some key := by
    obtain ⟨inside, _⟩ := List.getElem?_eq_some_iff.mp found
    unfold accountAt
    rw [List.getElem?_append_left inside, found]
  unfold movesBetween
  rw [static at_dest, static at_authority]
  cases accountAt tx loaded source with
  | none => exact .inl rfl
  | some sourceKey => exact .inr ⟨sourceKey, rfl⟩

-- The two kinds of transfer, and where their accounts are.
theorem transferAccounts_cases {destIndex ownerIndex : Nat}
    (accounts : transferAccounts instruction = some (destIndex, ownerIndex)) :
    ∃ opcode rest source others, instruction.data = opcode :: rest ∧
      (opcode = 3 ∧ instruction.accounts = source :: destIndex :: ownerIndex :: others ∨
        ∃ mint, opcode = 12 ∧ instruction.accounts = source :: mint :: destIndex :: ownerIndex :: others) := by
  unfold transferAccounts at accounts
  cases data : instruction.data with
  | nil =>
      rw [data] at accounts
      cases accounts
  | cons opcode rest =>
      rw [data] at accounts
      dsimp only at accounts
      by_cases plain : opcode = 3 ∧ 9 ≤ (opcode :: rest).length
      · rw [if_pos plain] at accounts
        split at accounts
        · next source dest owner others found =>
          cases accounts
          exact ⟨opcode, rest, source, others, rfl, .inl ⟨plain.1, found⟩⟩
        · cases accounts
      · rw [if_neg plain] at accounts
        by_cases checked : opcode = 12 ∧ 9 ≤ (opcode :: rest).length
        · rw [if_pos checked] at accounts
          split at accounts
          · next source mint dest owner others found =>
            cases accounts
            exact ⟨opcode, rest, source, others, rfl, .inr ⟨mint, checked.1, found⟩⟩
          · cases accounts
        · rw [if_neg checked] at accounts
          cases accounts

/-- What moves for the verifier moves for the token program, or the transaction fails. -/
theorem tokenEffect_of_moves (loaded : List PublicKey) {dest owner : PublicKey} {amount : UInt64}
    (moves : Moves p tx.accountKeys instruction dest owner amount) :
    tokenEffect p tx loaded instruction = .malformed ∨
      ∃ source, tokenEffect p tx loaded instruction = .transfer ⟨source, dest, owner, amount.toNat⟩ := by
  obtain ⟨destIndex, ownerIndex, accounts, at_dest, at_owner⟩ := moves.positions
  rw [← moves.amount]
  obtain ⟨opcode, rest, source, others, data, plain | checked⟩ := transferAccounts_cases accounts
  · obtain ⟨rfl, listed⟩ := plain
    rw [tokenEffect, if_pos moves.transfer.1, data, listed]
    dsimp only
    rw [if_pos rfl]
    split
    · exact .inl rfl
    · exact movesBetween_static at_dest at_owner
  · obtain ⟨mint, rfl, listed⟩ := checked
    rw [tokenEffect, if_pos moves.transfer.1, data, listed]
    dsimp only
    rw [if_neg (by decide), if_pos rfl]
    split
    · exact .inl rfl
    · exact movesBetween_static at_dest at_owner

/-- A transfer of the token program is one the verifier reads, if its accounts are static. -/
theorem moves_of_tokenEffect {transfer : Transfer PublicKey} (static : ¬ Beyond p tx.accountKeys instruction)
    (effect : tokenEffect p tx loaded instruction = .transfer transfer) :
    ∃ amount, transfer.amount = UInt64.toNat amount ∧
      Moves p tx.accountKeys instruction transfer.dest transfer.authority amount := by
  have shaped : TransferLike p tx.accountKeys instruction := by
    unfold tokenEffect at effect
    split at effect
    · next token =>
      refine ⟨token, ?_⟩
      split at effect
      · cases effect
      · next opcode rest data =>
        rw [data]
        split at effect
        · next plain =>
          subst plain
          split at effect
          · next found =>
            rw [found]
            split at effect
            · cases effect
            · next long =>
              rw [data, Nat.not_lt] at long
              exact ⟨long, .inl ⟨rfl, by simp⟩⟩
          · cases effect
        · split at effect
          · next checked =>
            subst checked
            split at effect
            · next found =>
              rw [found]
              split at effect
              · cases effect
              · next long =>
                rw [data, Nat.not_lt] at long
                exact ⟨Nat.le_of_succ_le long, .inr ⟨rfl, by simp⟩⟩
            · cases effect
          · cases effect
    · cases effect
  rcases sight_cases p tx.accountKeys instruction with ⟨other, _⟩ |
    ⟨_, _, _, _, ⟨dest, owner, _, _, seen⟩ | ⟨_, seen⟩⟩
  · exact absurd shaped other
  · have moves := sight_transfer.mp seen
    rcases tokenEffect_of_moves loaded moves with failed | ⟨source, same⟩
    · rw [failed] at effect
      cases effect
    · rw [same] at effect
      cases effect
      exact ⟨_, rfl, moves⟩
  · exact absurd (sight_beyond.mp seen) static

theorem transfersOf_append {first second : List CompiledInstruction} {transfers : List (Transfer PublicKey)}
    (read : transfersOf p tx loaded (first ++ second) = some transfers) : ∃ front back,
    transfersOf p tx loaded first = some front ∧ transfersOf p tx loaded second = some back ∧
      transfers = front ++ back := by
  induction first generalizing transfers with
  | nil => exact ⟨[], transfers, rfl, read, rfl⟩
  | cons instruction rest ih =>
      rw [List.cons_append, transfersOf] at read
      rw [transfersOf]
      cases effect : tokenEffect p tx loaded instruction with
      | other =>
          rw [effect] at read
          exact ih read
      | malformed =>
          rw [effect] at read
          cases read
      | transfer transfer =>
          rw [effect] at read
          obtain ⟨later, read_rest, rfl⟩ := Option.map_eq_some_iff.mp read
          obtain ⟨front, back, reads, reads', rfl⟩ := ih read_rest
          exact ⟨transfer :: front, back, by simp [reads], reads', rfl⟩

theorem mem_transfersOf {instructions : List CompiledInstruction} {transfers : List (Transfer PublicKey)}
    (read : transfersOf p tx loaded instructions = some transfers) {transfer : Transfer PublicKey}
    (among : transfer ∈ transfers) :
    ∃ instruction ∈ instructions, tokenEffect p tx loaded instruction = .transfer transfer := by
  obtain ⟨front, back, rfl⟩ := List.append_of_mem among
  induction instructions generalizing front with
  | nil => simp [transfersOf] at read
  | cons instruction rest ih =>
      rw [transfersOf] at read
      have later {front : List (Transfer PublicKey)}
          (read_rest : transfersOf p tx loaded rest = some (front ++ transfer :: back)) :
          ∃ i ∈ instruction :: rest, tokenEffect p tx loaded i = .transfer transfer := by
        obtain ⟨found, member, effect⟩ := ih front read_rest (by simp)
        exact ⟨found, List.mem_cons_of_mem _ member, effect⟩
      cases effect : tokenEffect p tx loaded instruction with
      | other =>
          rw [effect] at read
          exact later read
      | malformed =>
          rw [effect] at read
          cases read
      | transfer first =>
          rw [effect] at read
          obtain ⟨rest_transfers, read_rest, same⟩ := Option.map_eq_some_iff.mp read
          cases front with
          | nil =>
              cases same
              exact ⟨instruction, List.mem_cons_self, effect⟩
          | cons _ front =>
              cases same
              exact later read_rest

-- The transfer of an instruction that moves tokens for the verifier.
theorem transfer_of_moves {transfers : List (Transfer PublicKey)}
    (read : transfersOf p tx loaded tx.instructions = some transfers) (present : instruction ∈ tx.instructions)
    {dest owner : PublicKey} {amount : UInt64} (moves : Moves p tx.accountKeys instruction dest owner amount) :
    ∃ transfer ∈ transfers, transfer.dest = dest ∧ transfer.amount = amount.toNat := by
  obtain ⟨before, after, split⟩ := List.append_of_mem present
  rw [split] at read
  obtain ⟨front, back, _, reads, rfl⟩ := transfersOf_append read
  rw [transfersOf] at reads
  rcases tokenEffect_of_moves loaded moves with failed | ⟨source, effect⟩
  · rw [failed] at reads
    cases reads
  · rw [effect] at reads
    obtain ⟨rest, _, rfl⟩ := Option.map_eq_some_iff.mp reads
    exact ⟨_, List.mem_append_right _ List.mem_cons_self, rfl, rfl⟩

end Reading

section Credit
variable {p : Platform} {memoV1 : PublicKey} {payee : Payee} {reference signature merchant sender : String}
variable {amount : Int64} {tx : Transaction} {later : History}

theorem toNat_toUInt64 (positive : 0 < amount) : (amount.toUInt64.toNat : Int) = amount.toInt := by
  have bound : 0 < amount.toBitVec.toInt := Int64.lt_iff_toInt_lt.mp positive
  change (amount.toBitVec.toNat : Int) = amount.toBitVec.toInt
  have inside := amount.toBitVec.isLt
  rw [BitVec.toInt_eq_toNat_cond] at bound ⊢
  by_cases low : 2 * amount.toBitVec.toNat < 2 ^ 64
  · rw [if_pos low]
  · rw [if_neg low] at bound
    omega

/-- An accepted transaction pays the merchant's account the expected amount, net, if nothing
is taken out of that account; if one transfer alone pays into it, only then. Nobody but the
account's delegate takes from it. -/
theorem accepted_credit (base58 : Base58 p) (valid : Resolved p merchant memoV1 payee)
    (run : Follows (verifyTransactionForMerchantWithSender p reference signature amount merchant) []
      (.accepted sender) later) (fetched : Fetched p later signature tx) (positive : 0 < amount)
    {loaded : List PublicKey} {transfers : List (Transfer PublicKey)} {ledger settled : Ledger PublicKey}
    (effects : transfersOf p tx loaded tx.instructions = some transfers)
    (executes : TokenLedger.run transfers ledger = some settled) {account : Account PublicKey}
    (held : ledger payee.ata = some account) (owned : account.owner = payee.merchant) :
    (Untouched payee.ata transfers → amount.toInt ≤ credited payee.ata transfers - debited payee.ata transfers) ∧
    (transfers.countP (fun transfer => transfer.dest = payee.ata) ≤ 1 →
      (amount.toInt ≤ credited payee.ata transfers - debited payee.ata transfers ↔ Untouched payee.ata transfers)) ∧
    (∃ balance, settled payee.ata = some balance ∧
      balance.amount + debited payee.ata transfers = account.amount + credited payee.ata transfers) ∧
    ∀ transfer ∈ transfers, transfer.source = payee.ata → account.delegate = some transfer.authority := by
  have answered := (verify_follows run).1 tx fetched
  obtain ⟨static, parts, _⟩ := (verifyPayment_accepts base58 valid).mp answered.symm
  have worth := toNat_toUInt64 positive
  -- What the verifier has matched is one of the transfers.
  obtain ⟨matched, among, pays, exact_amount⟩ : ∃ transfer ∈ transfers, transfer.dest = payee.ata ∧
      transfer.amount = amount.toUInt64.toNat := by
    obtain ⟨instruction, present, owner, moves⟩ := parts.paid
    exact transfer_of_moves effects present moves
  have enough := le_credited among pays
  refine ⟨fun untouched => ?_, fun sole => ?_, ?_, ?_⟩
  · rw [← debited_eq_zero_iff] at untouched
    omega
  · have all_paid := credited_sole among pays sole
    rw [← debited_eq_zero_iff]
    omega
  · obtain ⟨balance, at_end, _, moved⟩ := run_balance executes held
    exact ⟨balance, at_end, moved⟩
  · intro transfer member takes
    rcases run_authority executes held member takes with by_owner | by_delegate
    · obtain ⟨instruction, present, effect⟩ := mem_transfersOf effects member
      obtain ⟨moved, _, moves⟩ := moves_of_tokenEffect (static instruction present) effect
      rw [by_owner, owned] at moves
      exact absurd ⟨_, _, moves⟩ (parts.foreign instruction present)
    · exact by_delegate

end Credit

section Meetup
open Mainnet

def balances (key : PublicKey) : Option (Account PublicKey) :=
  if key = payerAccount then some ⟨mintKey, payerKey, 3000000, none, 0⟩
  else if key = merchantAccount then some ⟨mintKey, merchantKey, 5000000, some payerKey, 1000000⟩
  else none

-- A verification of a landed transaction that fetches and accepts it.
theorem meetup_accepts (tx : Transaction)
    (accepts : (match verifyPayment platform uuid1 1000000 merchant tx with
      | .accepted _ => true
      | _ => false) = true) :
    ∃ sender later, Follows (verifyTransactionForMerchantWithSender platform uuid1 signatureText1 1000000 merchant)
      [] (.accepted sender) later ∧ Fetched platform later signatureText1 tx := by
  have decoded : decodeResult ⟨some ⟨none⟩, .ok tx⟩ = .ok tx := rfl
  obtain ⟨later, fetches, fetched⟩ := fetchTransaction_run meetup_signature decoded
  have run := verify_fetches meetup_set fetches uuid1 1000000
  split at accepts
  · next sender same =>
    rw [same] at run
    exact ⟨sender, later, run, fetched⟩
  · cases accepts

/-- A deposit from the payer's account. -/
theorem accepted_credit_meetup :
    ∃ sender later transfers settled,
      Follows (verifyTransactionForMerchantWithSender platform uuid1 signatureText1 1000000 merchant) []
        (.accepted sender) later ∧
      transfersOf platform (deposit [uuid1]) [] (deposit [uuid1]).instructions = some transfers ∧
      TokenLedger.run transfers balances = some settled ∧
      (1000000 : Int64).toInt ≤ credited merchantAccount transfers - debited merchantAccount transfers := by
  obtain ⟨sender, later, run, fetched⟩ := meetup_accepts (deposit [uuid1]) (by decide +kernel)
  let transfer : Transfer PublicKey := ⟨payerAccount, merchantAccount, payerKey, 1000000⟩
  have effects : transfersOf platform (deposit [uuid1]) [] (deposit [uuid1]).instructions = some [transfer] := by
    rfl
  obtain ⟨settled, executes⟩ := Option.isSome_iff_exists.mp
    (show (TokenLedger.run [transfer] balances).isSome = true by decide +kernel)
  have held : balances meetupPayee.ata = some ⟨mintKey, merchantKey, 5000000, some payerKey, 1000000⟩ := rfl
  have untouched : Untouched meetupPayee.ata [transfer] := by
    intro other among takes
    rw [List.mem_singleton.mp among] at takes
    exact absurd takes (by decide)
  have credit := accepted_credit base58 meetup_resolved run fetched (by decide) effects executes held rfl
  exact ⟨sender, later, [transfer], settled, run, effects, executes, credit.1 untouched⟩

/-- A delegate of the merchant's account moves the amount from it to itself. -/
def selfCredit : Transaction where
  accountKeys := [payerKey, merchantAccount, tokenProgram, memoProgram]
  instructions := [⟨2, [1, 1, 0], [3, 0x40, 0x42, 0x0f, 0, 0, 0, 0, 0]⟩, ⟨3, [], uuid1.toUTF8.toList⟩]
  numRequiredSignatures := 1

/-- It is accepted and credits nothing. -/
theorem self_credit_accepted :
    ∃ sender later transfers settled,
      Follows (verifyTransactionForMerchantWithSender platform uuid1 signatureText1 1000000 merchant) []
        (.accepted sender) later ∧ Fetched platform later signatureText1 selfCredit ∧
      transfersOf platform selfCredit [] selfCredit.instructions = some transfers ∧
      TokenLedger.run transfers balances = some settled ∧
      ¬ (1000000 : Int64).toInt ≤ credited merchantAccount transfers - debited merchantAccount transfers := by
  obtain ⟨sender, later, run, fetched⟩ := meetup_accepts selfCredit (by decide +kernel)
  let transfer : Transfer PublicKey := ⟨merchantAccount, merchantAccount, payerKey, 1000000⟩
  obtain ⟨settled, executes⟩ := Option.isSome_iff_exists.mp
    (show (TokenLedger.run [transfer] balances).isSome = true by decide +kernel)
  exact ⟨sender, later, [transfer], settled, run, fetched, rfl, executes, by decide⟩

end Meetup

end Payknot
