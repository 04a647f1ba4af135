import Payknot.Execution

/-! `watcher.go`: the RPC part of the verifiers, detection by reference and the
recovery sweep. Each bind is one statement, command or call, in source order. -/
namespace Payknot
open GoText Interleaving

inductive Answer where
  | responded (status : Nat) (content : Content)
  /-- A background pass that ended; there is nobody to answer. -/
  | swept
  | panicked

abbrev Handler := Program Reply

def sql (statement : Sql) : Handler (Except Fault statement.Result) := Program.perform (Op.sql statement)
def redis (command : Redis) : Handler (Except Fault command.Result) := Program.perform (Op.redis command)
def rpc (call : Rpc) : Handler (Except Fault call.Result) := Program.perform (Op.rpc call)
def newUUID : Handler String := Program.perform Op.newUUID
def timeNow : Handler Time := Program.perform Op.now

def httpError (text : String) (status : Nat) : Answer := .responded status (.message text)

def getRpcClientWithFailover : Handler RpcClient := do
  match ← rpc .getHealth with
  | .ok _ => return .primary
  | .error _ => return .backup

def fetchTransaction (p : Platform) (signature : String) : Handler (Except String Transaction) := do
  let client ← getRpcClientWithFailover
  match p.signatureFromBase58 signature with
  | .error text => return .error ("invalid signature format: " ++ text)
  | .ok sig =>
      match ← rpc (.getTransaction client sig) with
      | .error fault => return .error ("failed to get transaction: " ++ fault.text)
      | .ok result => return decodeResult result

def verifyTransactionForMerchantWithSender (p : Platform) (reference signature : String)
    (expectedAmount : Int64) (merchantWalletStr : String) : Handler (Verdict String) := do
  if merchantWalletStr = "" ∨ p.usdcMint = "" then
    return .rejected "merchant wallet or USDC_MINT is not set"
  match ← fetchTransaction p signature with
  | .error text => return .rejected text
  | .ok tx => return verifyPayment p reference expectedAmount merchantWalletStr tx

/-- `VerifyTransactionForMerchant` drops the sender; callers here match on the verdict only. -/
def verifyTransactionForMerchant (p : Platform) (reference signature : String)
    (expectedAmount : Int64) (merchantWalletStr : String) : Handler (Verdict String) :=
  verifyTransactionForMerchantWithSender p reference signature expectedAmount merchantWalletStr

def verifyDirectTransferForMerchant (p : Platform) (signature : String) (expectedAmount : Int64)
    (merchantWalletStr senderWalletStr : String) : Handler (Verdict Unit) := do
  if merchantWalletStr = "" ∨ p.usdcMint = "" then
    return .rejected "merchant wallet or USDC_MINT is not set"
  match ← fetchTransaction p signature with
  | .error text => return .rejected text
  | .ok tx => return verifyDirect p expectedAmount merchantWalletStr senderWalletStr tx

def detectAmong (p : Platform) (reference : String) (expectedAmount : Int64)
    (merchantWalletStr : String) : List SignatureInfo → Handler (Verdict (String × String))
  | [] => return .rejected "transaction not detected yet"
  | info :: rest =>
      match info.memo with
      | none => detectAmong p reference expectedAmount merchantWalletStr rest
      | some memo =>
          if containsText memo.toUTF8.toList reference then do
            let signature := p.signatureString info.signature
            match ← verifyTransactionForMerchantWithSender p reference signature expectedAmount
                merchantWalletStr with
            | .accepted sender => return .accepted (signature, sender)
            | .rejected _ => detectAmong p reference expectedAmount merchantWalletStr rest
            | .panicked => return .panicked
          else detectAmong p reference expectedAmount merchantWalletStr rest

def detectSignatureByReferenceForMerchant (p : Platform) (reference : String)
    (expectedAmount : Int64) (merchantWalletStr : String) : Handler (Verdict (String × String)) := do
  if merchantWalletStr = "" ∨ p.usdcMint = "" then
    return .rejected "merchant wallet or USDC_MINT is not set"
  match resolvePayee p merchantWalletStr with
  | .panicked => return .panicked
  | .rejected text => return .rejected text
  | .accepted payee =>
      let client ← getRpcClientWithFailover
      match ← rpc (.getSignaturesForAddress client payee.ata 30) with
      | .error fault => return .rejected fault.text
      | .ok signatures => detectAmong p reference expectedAmount merchantWalletStr signatures

/-- The loop of `RecoverErrorInvoices`. -/
def recoverRows (p : Platform) : List CheckoutRecoveryRow → Handler Answer
  | [] => return .swept
  | row :: rest => do
      match ← verifyTransactionForMerchantWithSender p row.reference row.signature row.amount
          row.merchantWallet with
      | .accepted senderWallet =>
          let _ ← sql (.markCheckoutPaid row.id row.signature senderWallet)
          recoverRows p rest
      | .rejected _ =>
          let now ← timeNow
          if now - row.createdAt > 60 * minute then
            let _ ← sql (.markCheckoutFailed row.id)
          recoverRows p rest
      | .panicked => return .panicked

def recoverErrorInvoices (p : Platform) : Handler Answer := do
  match ← sql .selectRecoverable with
  | .error _ => return .swept
  | .ok rows => recoverRows p rows

end Payknot
