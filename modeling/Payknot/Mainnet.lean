import Payknot.Effects

/-! A concrete platform to run the service on. Address and signature text is decoded
and encoded in base 58, UUID text is read the way the Go package and the database
read it; derived token accounts and JSON documents are those of one meetup event. -/
namespace Payknot.Mainnet
open GoText Interleaving Machine

section Base58

def digit (c : Char) : Option Nat :=
  let n := c.toNat
  if '1' ≤ c ∧ c ≤ '9' then some (n - 49)
  else if 'A' ≤ c ∧ c ≤ 'H' then some (n - 65 + 9)
  else if 'J' ≤ c ∧ c ≤ 'N' then some (n - 74 + 17)
  else if 'P' ≤ c ∧ c ≤ 'Z' then some (n - 80 + 22)
  else if 'a' ≤ c ∧ c ≤ 'k' then some (n - 97 + 33)
  else if 'm' ≤ c ∧ c ≤ 'z' then some (n - 109 + 44)
  else none

def symbol (d : Nat) : Char :=
  if d < 9 then Char.ofNat (d + 49)
  else if d < 17 then Char.ofNat (d - 9 + 65)
  else if d < 22 then Char.ofNat (d - 17 + 74)
  else if d < 33 then Char.ofNat (d - 22 + 80)
  else if d < 44 then Char.ofNat (d - 33 + 97)
  else Char.ofNat (d - 44 + 109)

def readDigits : List Char → Nat → Option Nat
  | [], value => some value
  | c :: rest, value =>
      match digit c with
      | some d => readDigits rest (value * 58 + d)
      | none => none

def byteLength (value : Nat) : Nat := if value = 0 then 0 else value.log2 / 8 + 1

/-- Exactly `size` bytes; every leading '1' is a zero byte. -/
def decode (size : Nat) (text : String) : Option (BitVec (8 * size)) :=
  match readDigits text.toList 0 with
  | some value =>
      if (text.toList.takeWhile (· = '1')).length + byteLength value = size then
        some (BitVec.ofNat _ value)
      else none
  | none => none

def writeDigits : Nat → Nat → List Char → List Char
  | 0, _, text => text
  | fuel + 1, value, text =>
      if value = 0 then text else writeDigits fuel (value / 58) (symbol (value % 58) :: text)

def encode (size : Nat) (bits : BitVec (8 * size)) : String :=
  String.ofList (List.replicate (size - byteLength bits.toNat) '1' ++
    writeDigits (2 * size) bits.toNat [])

end Base58

section UUIDs

def isHex (c : Char) : Bool := c.isDigit || ('a' ≤ c && c ≤ 'f') || ('A' ≤ c && c ≤ 'F')

/-- Eight, four, four, four and twelve hexadecimal digits joined by dashes. -/
def isDashed (text : List Char) : Bool :=
  text.length == 36 && (text.zipIdx.all fun (c, i) =>
    if i = 8 ∨ i = 13 ∨ i = 18 ∨ i = 23 then c == '-' else isHex c)

/-- `uuid.Parse`: plain, urn, bracketed (by any two characters) or undashed. -/
def uuidParse (text : String) : Bool :=
  let runes := text.toList
  if runes.length = 36 then isDashed runes
  else if runes.length = 45 then
    (runes.take 9).map Char.toLower == "urn:uuid:".toList && isDashed (runes.drop 9)
  else if runes.length = 38 then isDashed ((runes.drop 1).take 36)
  else runes.length == 32 && runes.all isHex

/-- The loop of the database's `string_to_uuid`: `left` of 16 bytes are to be read,
and a dash may follow every second one. -/
def readUUID : Nat → List Char → Option (List Char × List Char)
  | 0, rest => some ([], rest)
  | left + 1, high :: low :: rest =>
      if isHex high && isHex low then
        let rest := if rest.head? = some '-' ∧ left % 2 = 0 ∧ left ≠ 0 then rest.drop 1 else rest
        (readUUID left rest).map fun (digits, rest) => (high.toLower :: low.toLower :: digits, rest)
      else none
  | _ + 1, _ => none

def dashed (digits : List Char) : String :=
  String.ofList (digits.take 8 ++ '-' :: (digits.drop 8).take 4 ++ '-' :: (digits.drop 12).take 4 ++
    '-' :: (digits.drop 16).take 4 ++ '-' :: digits.drop 20)

def uuidText (text : String) : Option String :=
  let braced := text.toList.head? = some '\x7b'
  match readUUID 16 (if braced then text.toList.drop 1 else text.toList) with
  | some (digits, rest) => if rest = (if braced then ['\x7d'] else []) then some (dashed digits) else none
  | none => none

end UUIDs

def usdcMint : String := "EPjFWdd5AufqSSqeM2qN1xzybapC8G4wEGGkZwyTDt1v"

def merchant : String := "2t3G9LUC4pPp2K2tiJVN5puyKARGe1UZhhwEdXwyBzdE"
def payer : String := "6efGkXSWaVSoM1CqHq6Zw2eUumZzxU4KptsYD19xnc3x"

def merchantKey : PublicKey := 0x1beedd64f146504f3578f0a941e6e1f1813f5dd048c8cb02b73b7594c8598489
def merchantAccount : PublicKey := 0x4d67f1fb1ba13ae024543c0f689235ab037d62db31233330a60ec110bd0df7e
def payerKey : PublicKey := 0x53f032c78c8ab1a3b0be4922f5a0c2df5180e9aed9e5c95f770325fc6b6d360f
def payerAccount : PublicKey := 0x74565ab7d78906c52976032bfccaca7d18f285f0b394ad379e7c14f8e957ce4d
def mintKey : PublicKey := 0xc6fa7af3bedbad3a3d65f36aabc97431b1bbe4c2d2f6e0e47ca60203452f5d61
def memoProgram : PublicKey := 0x54a535a992921064d24e87160da387c7c35b5ddbc92bb81e41fa8404105448d
def tokenProgram : PublicKey := 0x6ddf6e1d765a193d9cbe146ceeb79ac1cb485ed5f5b37913a8cf5857eff00a9

def email : String := "ann@example.com"
def participant : Object := [("email", .str email)]
def participantText : String := "\x7b\"email\":\"ann@example.com\"\x7d"

def farFuture : Time := 64029052800 * second

/-- Addresses and JSON documents outside the event's own are not derived or parsed. -/
def platform : Platform where
  usdcMint := usdcMint
  webhookURL := ""
  publicKeyFromBase58 := decode 32
  publicKeyString := encode 32
  signatureFromBase58 text :=
    match decode 64 text with
    | some signature => .ok signature
    | none => .error "invalid base58"
  signatureString := encode 64
  findAssociatedTokenAddress owner mint :=
    if owner = merchantKey ∧ mint = mintKey then .ok merchantAccount
    else .error "unable to find a valid program address"
  memoProgramID := memoProgram
  tokenProgramID := tokenProgram
  uuidParse := uuidParse
  uuidText := uuidText
  lowerRune := Char.toLower
  sprintFloat bits := toString bits
  marshalMap
    | none => "null"
    | some [] => "\x7b\x7d"
    | some _ => participantText
  unmarshalMap text := if text = participantText then some participant else some []
  formatTwoDecimals n := toString n
  formatAtomicAmount n := toString n
  queryEscape text := text
  parseRFC3339 text := if text = "2030-01-01T00:00:00Z" then some farFuture else none
  jsonb text :=
    if text = participantText then some (.obj participant)
    else if text = "\x7b\x7d" then some (.obj [])
    else if text = "null" then some .null
    else none
  jsonbText document key :=
    match document with
    | .obj members =>
        match lookup members key with
        | .str value => some value
        | _ => none
    | _ => none
  lower text := String.ofList (text.toList.map Char.toLower)

section Meetup

def host : String := "host@example.com"

def columns : EventColumns where
  title := "Meetup"
  description := ""
  eventImageURL := ""
  eventDate := none
  location := ""
  organizerName := ""
  merchantWallet := merchant
  amountUSDC := 1000000
  eventSource := "custom"
  sourceURL := ""
  participantFormSchema := encodeParticipantFields [⟨"email", true⟩]
  paymentMethods := encodePaymentMethods ⟨true, true⟩
  checkoutExpiresAt := farFuture

def meetup : EventRow := ⟨1, "meetup", host, "active", columns, 63902736000 * second⟩

/-- One event and some landed transactions; nothing set up or paid. -/
def opening (chain : List Landed) : Service :=
  { world :=
      { events := [meetup], nextEventId := 2, invoices := [], checkouts := [], nextCheckoutId := 1
        sessions := [], attempts := [], records := [], cache := [], chain := chain
        now := 63902822400 * second, minted := [] }
    threads := [] }

theorem opening_fresh (chain : List Landed) : Fresh (opening chain) := ⟨rfl, rfl, rfl, rfl, rfl⟩

/-- A deposit of 1 USDC by `payer` with one memo for each text. -/
def deposit (memos : List String) : Transaction where
  accountKeys := [payerKey, payerAccount, merchantAccount, tokenProgram, memoProgram]
  instructions := ⟨3, [1, 2, 0], [3, 0x40, 0x42, 0x0f, 0, 0, 0, 0, 0]⟩ ::
    memos.map fun memo => ⟨4, [], memo.toUTF8.toList⟩
  numRequiredSignatures := 1

def landed (signature : Signature) (memos : List String) : Landed where
  signature := signature
  result := ⟨some ⟨none⟩, .ok (deposit memos)⟩
  addresses := [payerKey, payerAccount, merchantAccount, tokenProgram, memoProgram]
  memo := if memos = [] then none else some ("; ".intercalate (memos.map ("[36] " ++ ·)))

def signature1 : Signature := 0xe04c7a81435e78b4e8c6799b78dbecdf13b430806d0ca8a3cbc408fdaf80a19a07c5165c9e521e634e6d00dfc160abae49b54885e280d74b804a477d4976d591
def signature2 : Signature := 0x5e1848cb35264b2519e27a1e51025b5504559701d6dfb844d57d3d0cb19ebeb66a954cfb58056fa88ccafb68c1bfc776123e4339e374adcfac986a3caef1f222

def signatureText1 : String :=
  "5V6h55aoV6XfkVbt3upv6m8z4HQeykaRQQFy1f13R8EdhhgCrmqw9F2CReTSYrYM4YAmaVcKRahXKSHb6ZW96U9E"
def signatureText2 : String :=
  "2t7Yweh2h54uPup4HGwxucX1fELkZcm2x5XbyHFmhR4Ep6Wy1eYdWHn56wd5vVmDTHzQUDTQY4fiNoEAoYgJz3tu"

def uuid1 : String := "00000000-0000-4000-8000-000000000001"
def uuid2 : String := "00000000-0000-4000-8000-000000000002"
def uuid3 : String := "00000000-0000-4000-8000-000000000003"
def uuid4 : String := "00000000-0000-4000-8000-000000000004"

/-- `count` operations of one request, none failing; a drawn identifier is `uuid`. -/
def steps (index count : Nat) (uuid : String) : List ServiceLabel :=
  List.replicate count (.step index ⟨none, uuid⟩)

def manualVerify (signature : String) : Request :=
  .manualVerify ⟨.post, some ⟨"meetup", payer, signature, some participant⟩⟩

-- One manually verified deposit, recorded while nothing else is paid.
theorem manual_deposit :
    ∃ cfg : Service, (machine platform).Reaches
        (fun cfg _ => cfg.world.checkouts.isEmpty = true) (opening [landed signature1 []]) cfg ∧
      ∃ row ∈ cfg.world.checkouts, row.status = .paid := by
  obtain ⟨cfg, run, paid⟩ := run_meets (machine platform)
    (fun cfg _ => cfg.world.checkouts.isEmpty)
    (.arrive (manualVerify signatureText1) :: steps 0 6 uuid1) (opening [landed signature1 []])
    (fun cfg => cfg.world.checkouts.any (·.isPaid)) (by decide +kernel)
  obtain ⟨row, member, is_paid⟩ := List.any_eq_true.mp paid
  exact ⟨cfg, run, row, member, by simpa [CheckoutRow.isPaid] using is_paid⟩

def createInvoice : Request :=
  .createInvoice ⟨.post, some ⟨"meetup", payer, some participant, "wallet"⟩⟩

def confirm (reference signature : String) : Request := .confirm ⟨.post, some ⟨reference, signature⟩⟩

def deleteEvent : Request := .deleteEvent 1 host

def raiseAmount : Request :=
  .updateEvent (some
    { title := "Meetup", description := "", eventImageURL := "", eventDate := ""
      checkoutExpiresAt := "2030-01-01T00:00:00Z", location := "", organizerName := ""
      merchantWallet := merchant, amountUSDC := 2, eventSource := "custom", sourceURL := ""
      participantFormSchema := [⟨"email", true⟩], paymentMethods := ⟨true, true⟩ }) 1 host

/-- The opening with one live session, set up under `uuid1`. -/
def awaiting (chain : List Landed) : Service :=
  let start := opening chain
  { start with world := { start.world with cache := [⟨redisKey uuid1,
      invoiceHash platform meetup payer "wallet" (some participant),
      some (start.world.now + 20 * minute)⟩] } }

/-- The opening with one payment session, `uuid3`, whose invoice is kept under `uuid1`. -/
def opened (chain : List Landed) : Service :=
  let start := awaiting chain
  { start with world := { start.world with sessions := [
      { id := uuid3, eventId := 1, ownerEmail := "public_checkout", participantData := .obj participant
        walletAddress := payer, paymentMethod := "wallet", state := .awaitingPayment
        reference := uuid1, amountAtomic := 1000000, mint := usdcMint, merchantWallet := merchant
        idempotencyKey := "", signature := none, expiresAt := start.world.now + 20 * minute }] } }

/-- A request to a subroute of the session `uuid3`. -/
def onSession (suffix : String) (signature : Option String) : V1Request :=
  ⟨.post, "/api/v1/payment-sessions/" ++ uuid3 ++ suffix, "", signature⟩

def submit : Request := .v1SubmitSignature (onSession "/submit-signature" (some signatureText1))
def cancel : Request := .v1Cancel (onSession "/cancel" none)

/-- An anonymous creation of a payment session, under an Idempotency-Key or none. -/
def creation (idempotencyKey : String) : V1CreateRequest :=
  ⟨.post, none, idempotencyKey, some ⟨1, "", "wallet", payer, some participant⟩⟩

def create (idempotencyKey : String) : Request := .v1Create (creation idempotencyKey)

-- One session, opened and confirmed by complete requests.
theorem confirmed_deposit :
    ∃ cfg : Service, (machine platform).Reaches
        (fun cfg label => oneAtATime cfg label = true ∧
          offers (fun request => request.opensSession || request.isLegacyFinaliser) cfg label = true)
        (opening [landed signature1 [uuid1]]) cfg ∧
      ∃ row ∈ cfg.world.checkouts, row.status = .paid ∧ row.eventId = meetup.id ∧
        row.emailIs platform email = true := by
  obtain ⟨cfg, run, done⟩ := run_meets (machine platform)
    (fun cfg label => oneAtATime cfg label &&
      offers (fun request => request.opensSession || request.isLegacyFinaliser) cfg label)
    (.arrive createInvoice :: steps 0 6 uuid1 ++
      .arrive (confirm uuid1 signatureText1) :: steps 1 8 uuid1)
    (opening [landed signature1 [uuid1]])
    (fun cfg => cfg.world.checkouts.any fun row =>
      row.isPaid && (row.eventId = meetup.id && row.emailIs platform email)) (by decide +kernel)
  simp only [Bool.and_eq_true, List.any_eq_true, CheckoutRow.isPaid, decide_eq_true_eq] at run done
  exact ⟨cfg, run, done⟩

end Meetup

end Payknot.Mainnet
