import Payknot.GoText

/-! What the service takes from outside its repository: the environment, the
Solana client library's text and address functions, UUID parsing, Unicode case
mapping, JSON text and PostgreSQL's jsonb and text functions. Nothing is assumed
about these functions here; a result that needs a law names it. -/
namespace Payknot
open GoText

/-- Nanoseconds after the zero `time.Time`. -/
abbrev Time := Int

abbrev PublicKey := BitVec 256
abbrev Signature := BitVec 512

def second : Time := 1000000000
def minute : Time := 60 * second

structure Platform where
  /-- `os.Getenv("USDC_MINT")` and `os.Getenv("PAYKNOT_WEBHOOK_URL")`. -/
  usdcMint : String
  webhookURL : String
  publicKeyFromBase58 : String → Option PublicKey
  publicKeyString : PublicKey → String
  signatureFromBase58 : String → Except String Signature
  signatureString : Signature → String
  findAssociatedTokenAddress : PublicKey → PublicKey → Except String PublicKey
  memoProgramID : PublicKey
  tokenProgramID : PublicKey
  /-- Whether `uuid.Parse` accepts the text. -/
  uuidParse : String → Bool
  /-- PostgreSQL's `::uuid` followed by `::text`. -/
  uuidText : String → Option String
  lowerRune : Char → Char
  sprintFloat : UInt64 → String
  /-- `json.Marshal` and `json.Unmarshal` of a `map[string]interface{}`. -/
  marshalMap : Option Object → String
  unmarshalMap : String → Option Object
  /-- `fmt.Sprintf("%.2f", float64(n))` and `fmt.Sprintf("%.6f", float64(n)/1_000_000)`. -/
  formatTwoDecimals : Int64 → String
  formatAtomicAmount : Int64 → String
  /-- `url.QueryEscape`. -/
  queryEscape : String → String
  parseRFC3339 : String → Option Time
  /-- PostgreSQL's `::jsonb`, `->>` and `LOWER`. -/
  jsonb : String → Option Json
  jsonbText : Json → String → Option String
  lower : String → String

/-- `usdcMintAddress`. -/
def usdcMintAddress (p : Platform) : String :=
  let v := trimSpace p.usdcMint
  if v ≠ "" then v else "EPjFWdd5AufqSSqeM2qN1xzybapC8G4wEGGkZwyTDt1v"

/-- Every branch of `networkFromMint` answers the same network. -/
def networkFromMint : String := "mainnet"

def solscanURLForNetwork (signature : String) : String := "https://solscan.io/tx/" ++ signature

def isValidWalletAddress (p : Platform) (value : String) : Bool :=
  value ≠ "" && (p.publicKeyFromBase58 value).isSome

def isValidReference (p : Platform) (reference : String) : Bool := p.uuidParse reference

end Payknot
