import NexaFx.Lib.Decimal
import NexaFx.Lib.Table
import NexaFx.Lib.Proc
import NexaFx.Lib.Pool
import NexaFx.Lib.RelyGuarantee
import NexaFx.Lib.Undo
import NexaFx.Lib.Serial
import NexaFx.Lib.Exclusive
import NexaFx.Model.Currency
import NexaFx.Model.Database
import NexaFx.Model.Wallets
import NexaFx.Model.Commands
import NexaFx.Model.Transactions
import NexaFx.Model.WalletRows
import NexaFx.Model.Idempotency
import NexaFx.Model.Statements
import NexaFx.Model.Limits
import NexaFx.Model.Auth
import NexaFx.Model.Login
import NexaFx.Model.RefreshTokens
import NexaFx.Model.Otp
import NexaFx.Model.ApiKeys
import NexaFx.Model.BalanceCache
import NexaFx.Model.Fx
import NexaFx.Model.Ledger
import NexaFx.Safety.Transfer
import NexaFx.Safety.Swap
import NexaFx.Safety.Agreement
import NexaFx.Safety.LostUpdate
import NexaFx.Safety.WalletInvariant
import NexaFx.Safety.AtMostOnce
import NexaFx.Safety.Isolation
import NexaFx.Safety.Statements
import NexaFx.Safety.Limits
import NexaFx.Safety.TokenRotation
import NexaFx.Safety.RefreshTokens
import NexaFx.Safety.BalanceCache
import NexaFx.Safety.FxTrade
import NexaFx.Safety.Reversing
import NexaFx.Safety.FxReversal
import NexaFx.Safety.PayOut
import NexaFx.Safety.Books
import NexaFx.Safety.Ledger
import NexaFx.Safety.ClosingBalance
import NexaFx.Safety.TransactionReversal
import NexaFx.Safety.Lockout
import NexaFx.Safety.Otp
import NexaFx.Safety.ApiKeys
import NexaFx.Model.Referrals
import NexaFx.Safety.ReferralLedger
import NexaFx.Safety.ReferralReward
import NexaFx.Lib.Custody
import NexaFx.Model.Webhooks
import NexaFx.Safety.WebhookDelivery
import NexaFx.Lib.SlidingWindow
import NexaFx.Model.EndpointLimits
import NexaFx.Safety.EndpointLimits
import NexaFx.Model.Quotes
import NexaFx.Safety.Quotes
import NexaFx.Model.Rollbacks
import NexaFx.Safety.Rollbacks
import NexaFx.Safety.RollbackOnce
import NexaFx.Safety.KeyExpiry
import NexaFx.Model.AccessTokens
import NexaFx.Safety.AccessTokens
import NexaFx.Lib.Latest
import NexaFx.Lib.Lease
import NexaFx.Safety.ScheduledJobs
import NexaFx.Model.Blocking
import NexaFx.Safety.Blocking
import NexaFx.Safety.Reconciliation
import NexaFx.Safety.LimitUsage
import NexaFx.Lib.FixedWindow
import NexaFx.Model.PerUserLimits
import NexaFx.Safety.PerUserLimits
import NexaFx.Lib.Finality
import NexaFx.Lib.Turns
import NexaFx.Model.Disputes
import NexaFx.Safety.Disputes
import NexaFx.Model.PasswordReset
import NexaFx.Model.Kyc
import NexaFx.Safety.KycApproval
import NexaFx.Safety.KycSubmission
import NexaFx.Safety.KycReview
import NexaFx.Model.KycTiers
import NexaFx.Safety.KycTiers
import NexaFx.Safety.KycTierRaces
import NexaFx.Lib.CheckThenAct
import NexaFx.Model.AccountClosure
import NexaFx.Safety.AccountClosure
import NexaFx.Lib.Lru
import NexaFx.Model.RateCache
import NexaFx.Safety.RateCache
import NexaFx.Model.RatesGateway
import NexaFx.Safety.RatesGateway
import NexaFx.Safety.Debits
import NexaFx.Safety.Refunds
import NexaFx.Model.Deposits
import NexaFx.Safety.DepositEndToEnd
import NexaFx.Lib.Backlog
import NexaFx.Safety.RetryRuns
import NexaFx.Safety.RetryQueue
import NexaFx.Safety.RetrySchedule
import NexaFx.Model.Push
import NexaFx.Safety.TokenCap
import NexaFx.Safety.TokenOwnership
import NexaFx.Model.AdminApprovals
import NexaFx.Model.BulkPayments
import NexaFx.Safety.AdminApprovals
import NexaFx.Safety.BulkPayments
import NexaFx.Safety.PasswordReset
import NexaFx.Lib.Csv
import NexaFx.Lib.IsoDate
import NexaFx.Lib.Grouping
import NexaFx.Model.Candles
import NexaFx.Safety.Candles
import NexaFx.Lib.Paging
import NexaFx.Model.CsvExports
import NexaFx.Safety.CsvExports
import NexaFx.Safety.AdminExports
import NexaFx.Model.Archival
import NexaFx.Safety.Archival
import NexaFx.Lib.JsNumber
import NexaFx.Lib.Buffer
import NexaFx.Lib.Gcm
import NexaFx.Model.WebhookUrls
import NexaFx.Safety.WebhookUrls
import NexaFx.Model.Encryption
import NexaFx.Safety.Encryption
import NexaFx.Safety.KeyRotation
import NexaFx.Model.ExchangeRate
import NexaFx.Safety.ExchangeRate
import NexaFx.Model.RateListing
import NexaFx.Safety.RateListing
import NexaFx.Model.IpAllowlist
import NexaFx.Safety.IpAllowlist
import NexaFx.Lib.JsReaders
import NexaFx.Model.EnvConfig
import NexaFx.Safety.EnvConfig
import NexaFx.Model.Reports
import NexaFx.Safety.Reports
import NexaFx.Model.FeeEngine
import NexaFx.Safety.FeeEngine
import NexaFx.Model.Aml
import NexaFx.Safety.Aml
import NexaFx.Safety.KycBulkReview
import NexaFx.Lib.Json
import NexaFx.Model.ExceptionFilter
import NexaFx.Safety.ExceptionFilter
import NexaFx.Lib.Replace
import NexaFx.Model.Sanitize
import NexaFx.Safety.Sanitize
import NexaFx.Lib.Separator
import NexaFx.Model.Metrics
import NexaFx.Safety.Metrics
import NexaFx.Safety.LimiterAnswers
import NexaFx.Safety.ReferralAcceptance
import NexaFx.Safety.ReceiptNumbers
import NexaFx.Safety.BalanceLoads
import NexaFx.Safety.Memos
import NexaFx.Lib.Journal
import NexaFx.Safety.Conservation
import NexaFx.Lib.Overlap
import NexaFx.Lib.Growth
import NexaFx.Model.ActiveRecords
import NexaFx.Safety.ActiveRecords
import NexaFx.Model.AdminAlerts
import NexaFx.Safety.AdminAlerts
import NexaFx.Model.RateAlerts
import NexaFx.Safety.RateAlerts
import NexaFx.Model.WebhookDispatch
import NexaFx.Safety.WebhookDispatch
import NexaFx.Lib.Atomic
import NexaFx.Safety.Serializable
import NexaFx.Lib.Linear
import NexaFx.Safety.RowAtomicity
import NexaFx.Lib.Progress
import NexaFx.Safety.RowProgress
import NexaFx.Lib.NumberText
import NexaFx.Lib.JsonText
import NexaFx.Lib.JsonRoundTrip
import NexaFx.Model.RequestHash
import NexaFx.Safety.Replay
