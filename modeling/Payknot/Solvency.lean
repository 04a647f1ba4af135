import Payknot.Signatures
import Payknot.VerifiedPayments

/-! A merchant's deposits are covered. Each recorded deposit has a transaction that pays its
amount into the merchant's token account; where no two deposits carry one signature, all of
them together are no more than what the chain has paid in. -/
namespace Payknot
open GoText Interleaving Machine

section Covering
variable {Claim Source : Type} {worth : Claim → Int} {holds : Source → Nat}
  {draws : Claim → Source → Prop}

/-- Claims that draw on different sources, none on more than its source holds, are covered
by the sources together. -/
theorem covered_sum {claims : List Claim} {sources : List Source}
    (drawn : ∀ claim ∈ claims, ∃ source ∈ sources, draws claim source ∧ worth claim ≤ holds source)
    (apart : claims.Pairwise fun claim other => ∀ source, draws claim source → ¬ draws other source) :
    (claims.map worth).sum ≤ ((sources.map holds).sum : Nat) := by
  induction claims generalizing sources with
  | nil =>
      rw [List.map_nil, List.sum_nil]
      exact Int.natCast_nonneg _
  | cons claim rest ih =>
      obtain ⟨source, member, own, fits⟩ := drawn claim List.mem_cons_self
      obtain ⟨front, back, rfl⟩ := List.append_of_mem member
      have remaining : ∀ other ∈ rest, ∃ source ∈ front ++ back,
          draws other source ∧ worth other ≤ holds source := by
        intro other among
        obtain ⟨source', member', theirs, fits'⟩ := drawn other (List.mem_cons_of_mem _ among)
        refine ⟨source', ?_, theirs, fits'⟩
        rcases List.mem_append.mp member' with before | after
        · exact List.mem_append_left _ before
        · rcases List.mem_cons.mp after with rfl | after
          · exact absurd theirs ((List.pairwise_cons.mp apart).1 other among _ own)
          · exact List.mem_append_right _ after
      have others := ih remaining (List.pairwise_cons.mp apart).2
      simp only [List.map_cons, List.sum_cons, List.map_append, List.sum_append] at others ⊢
      omega

end Covering

variable {p : Platform} {init cfg : Service}

section Receiving

def inflow (p : Platform) (account : PublicKey) (tx : Transaction) : Nat :=
  (tx.instructions.map fun instruction =>
    if tx.accountKeys[instruction.programIDIndex]? = some p.tokenProgramID ∧
        (transferAccounts instruction).any (fun accounts => tx.accountKeys[accounts.1]? = some account) then
      (transferAmount instruction).toNat
    else 0).sum

/-- What a landed transaction has paid into a token account; a failed one has paid nothing. -/
def received (p : Platform) (account : PublicKey) (landed : Landed) : Nat :=
  match decodeResult landed.result with
  | .ok tx => inflow p account tx
  | .error _ => 0

theorem toInt_le_toNat (amount : Int64) : amount.toInt ≤ (amount.toUInt64.toNat : Int) := by
  change amount.toBitVec.toInt ≤ (amount.toBitVec.toNat : Int)
  rw [BitVec.toInt_eq_toNat_cond]
  split <;> omega

theorem inflow_of_pays {tx : Transaction} {merchant : String} {payee : Payee} {amount : Int64}
    (resolved : resolvePayee p merchant = .accepted payee) (pays : PaysInto p tx merchant amount) :
    amount.toInt ≤ (inflow p payee.ata tx : Int) := by
  obtain ⟨other, same, instruction, among, dest, owner, ownerKey, program, accounts, at_dest, _, _, worth⟩ := pays
  cases resolved.symm.trans same
  refine (toInt_le_toNat amount).trans ?_
  obtain ⟨front, back, split⟩ := List.append_of_mem among
  unfold inflow
  rw [split]
  simp only [List.map_append, List.map_cons, List.sum_append, List.sum_cons, program, accounts, at_dest,
    Option.any_some, decide_true, and_self, if_true, worth]
  omega

end Receiving

def DrawsOn (p : Platform) (row : CheckoutRow) (landed : Landed) : Prop :=
  ∃ signature, row.signature = some signature ∧ p.signatureFromBase58 signature = .ok landed.signature

def depositsOf (events : Int64 → Bool) (w : World) : List CheckoutRow :=
  w.checkouts.filter fun row => events row.eventId && decide (row.status = .paid)

def WalletIs (events : Int64 → Bool) (merchant : String) (cfg : Service) (_ : ServiceLabel) : Prop :=
  ∀ event ∈ cfg.world.events, events event.id = true → event.columns.merchantWallet = merchant

/-- In every interleaving: the deposits recorded for events that keep one wallet throughout
are covered by what the chain has paid into that wallet's token account, as long as no two
paid rows carry one signature. -/
theorem deposits_covered {events : Int64 → Bool} {merchant : String} {payee : Payee} (fresh : Fresh init)
    (run : (machine p).Reaches (WalletIs events merchant) init cfg) (trimmed : trimSpace merchant = merchant)
    (resolved : resolvePayee p merchant = .accepted payee)
    (distinct : SignaturesDistinct cfg.world.checkouts)
    (once : ∀ text other sig, p.signatureFromBase58 text = .ok sig → p.signatureFromBase58 other = .ok sig →
      text = other) :
    ((depositsOf events cfg.world).map (·.amount.toInt)).sum ≤
      ((cfg.world.chain.map (received p payee.ata)).sum : Nat) := by
  refine covered_sum (?_ : ∀ row ∈ _, ∃ landed ∈ _, DrawsOn p row landed ∧ _) ?_
  · intro row among
    obtain ⟨member, chosen⟩ := List.mem_filter.mp among
    rw [Bool.and_eq_true] at chosen
    obtain ⟨thread, present_thread, event, wallet, signature, tx, receipt⟩ :=
      (receipted_reached fresh run.any).2 row member
    obtain ⟨sig, parsed, landed, present, same, succeeded, decoded⟩ := receipt.onChain
    have owned : event.columns.merchantWallet = merchant := by
      obtain ⟨middle, label, steady, listed⟩ := read_during run fresh.threads present_thread receipt.read
      apply steady event listed
      rw [← receipt.eventId]
      exact chosen.1
    have paid_to : wallet = merchant := by
      rcases receipt.wallet with as_stored | as_trimmed
      · exact as_stored.trans owned
      · rw [as_trimmed, owned, trimmed]
    have pays := receipt.pays
    rw [paid_to] at pays
    refine ⟨landed, present, ⟨signature, receipt.signed, by rw [parsed, same]⟩, ?_⟩
    have told : decodeResult landed.result = .ok tx := by
      obtain ⟨txMeta, has_meta, fine⟩ := succeeded
      unfold decodeResult
      simp only [has_meta, fine, decoded]
    unfold received
    rw [told]
    exact inflow_of_pays resolved pays
  · have paid : (depositsOf events cfg.world).Pairwise fun row other => row.signature ≠ other.signature := by
      refine List.Pairwise.imp_of_mem ?_ (distinct.filter _)
      intro row other among among' apart
      have paid_of {row : CheckoutRow} (among : row ∈ depositsOf events cfg.world) : row.status = .paid := by
        have chosen := (List.mem_filter.mp among).2
        rw [Bool.and_eq_true, decide_eq_true_eq] at chosen
        exact chosen.2
      exact apart (paid_of among) (paid_of among')
    refine paid.imp fun apart landed => ?_
    rintro ⟨text, signed, parsed⟩ ⟨other, signed', parsed'⟩
    apply apart
    rw [signed, signed', once _ _ _ parsed parsed']

section Meetup
open Mainnet

theorem signature_once (text other : String) (sig : Signature)
    (parsed : platform.signatureFromBase58 text = .ok sig)
    (parsed' : platform.signatureFromBase58 other = .ok sig) : text = other := by
  have written {text : String} (parsed : platform.signatureFromBase58 text = .ok sig) : encode 64 sig = text := by
    cases decoded : decode 64 text with
    | none => simp [platform, decoded] at parsed
    | some read =>
        simp only [platform, decoded, Except.ok.injEq] at parsed
        rw [← parsed]
        exact @encode_decode 64 text read decoded
  exact (written parsed).symm.trans (written parsed')

def keepsWallet (cfg : Service) (_ : ServiceLabel) : Bool :=
  cfg.world.events.all fun event => decide (event.columns.merchantWallet = merchant)

-- One deposit of 1 USDC, which the merchant's token account has received.
theorem deposits_covered_meetup :
    ∃ cfg : Service, depositsOf (fun _ => true) cfg.world ≠ [] ∧
      ((depositsOf (fun _ => true) cfg.world).map (·.amount.toInt)).sum ≤
        ((cfg.world.chain.map (received platform meetupPayee.ata)).sum : Nat) := by
  obtain ⟨cfg, run, done⟩ := run_meets (machine platform) keepsWallet
    (.arrive (manualVerify signatureText1) :: steps 0 6 uuid1) (opening [landed signature1 []])
    (fun cfg => cfg.world.checkouts.any (·.isPaid) && decide (SignaturesDistinct cfg.world.checkouts))
    (by decide +kernel)
  simp only [Bool.and_eq_true, decide_eq_true_eq] at done
  have steady : (machine platform).Reaches (WalletIs (fun _ => true) merchant)
      (opening [landed signature1 []]) cfg := by
    apply run.mono
    intro state label kept event listed _
    exact of_decide_eq_true (List.all_eq_true.mp kept event listed)
  have trimmed : trimSpace merchant = merchant := by decide +kernel
  have paid : ∃ row, row ∈ depositsOf (fun _ => true) cfg.world := by
    obtain ⟨row, member, is_paid⟩ := List.any_eq_true.mp done.1
    exact ⟨row, List.mem_filter.mpr ⟨member, by simpa [CheckoutRow.isPaid] using is_paid⟩⟩
  exact ⟨cfg, List.ne_nil_of_mem paid.choose_spec,
    deposits_covered (opening_fresh _) steady trimmed meetup_resolved.payee done.2 signature_once⟩

end Meetup

end Payknot
