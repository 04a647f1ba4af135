import Payknot.Signatures
import Payknot.EventLock
import Payknot.Immutability
import Payknot.Ledgers
import Payknot.Terms
import Payknot.EmailRule
import Payknot.SessionStates
import Payknot.Idempotency
import Payknot.Keyless
import Payknot.Sweeper
import Payknot.KeyRevocation
import Payknot.KeyOwnership
import Payknot.LoginNonces
import Payknot.Settlements
import Payknot.SentPayments
import Payknot.RateWindows
import Payknot.PasswordAccounts
import Payknot.SettlementPolicy
import Payknot.EventOwnership
import Payknot.EventPrivacy
import Payknot.TokenLifetime
import Payknot.Scanning
import Payknot.Verdicts
import Payknot.Base58
import Payknot.VerifiedPayments
import Payknot.TokenLedger
import Payknot.Credits
import Payknot.Detection
import Payknot.Tracking
import Payknot.Finalisation
import Payknot.SessionCreation
import Payknot.PaidAnswers
import Payknot.Base64URL
import Payknot.TokenKinds
import Payknot.Slugs
import Payknot.FormSchemas
import Payknot.CanonicalStrings
import Payknot.DepositAmounts
import Payknot.Admission
import Payknot.ManualAdmission
import Payknot.EmailMatching
import Payknot.EventSlugs
import Payknot.CheckoutRoutes
import Payknot.ReceiptLookup
import Payknot.RefusedSubmissions
import Payknot.AbandonedSessions
import Payknot.LegacySchemas
import Payknot.FailedSignIns
import Payknot.ImportOrder
import Payknot.CancelledInvoices
import Payknot.HtmlSanitiser
import Payknot.PayableSessions
import Payknot.SessionLedger
import Payknot.WholeServer
import Payknot.Solvency
import Payknot.LoginSessions
import Payknot.AgentSessions
import Payknot.Credentials
