import NexaFx.Lib.JsNumber
import NexaFx.Model.Database

/-!
# Environment variables

The schema of `config/env.validation.ts` and the numbers of
`config/configuration.ts`, with `scheduledJobs` closed where it is meant to be.
A field of the schema is `z.string().transform(Number).pipe(z.number()…)`, or a
text with its checks; what `z.email` and `z.url` accept is a parameter.
-/

namespace NexaFx

namespace EnvConfig

abbrev Env := String → Option (List Char)

/-! ## The schema -/

inductive Check where
  | min (bound : ℚ)
  | max (bound : ℚ)
  | positive
  | nonnegative
  /-- Safe integers. -/
  | int
  deriving DecidableEq

def Check.holds (x : ℚ) : Check → Bool
  | .min bound => bound ≤ x
  | .max bound => x ≤ bound
  | .positive => 0 < x
  | .nonnegative => 0 ≤ x
  | .int => x.isInt && |x| < 2 ^ 53

structure NumberField where
  name : String
  checks : List Check
  default : Option ℚ
  deriving DecidableEq

/-- What the schema makes of the variable: a finite number that passes. -/
def NumberField.parse (field : NumberField) (env : Env) : Option ℚ :=
  match env field.name with
  | none => field.default
  | some text =>
    match Js.number text with
    | .fin x => if field.checks.all (·.holds x) then some x else none
    | _ => none

def numberFields : List NumberField := [
  ⟨"PORT", [.min 1, .max 65535], some 3000⟩,
  ⟨"BODY_LIMIT_JSON", [.min 1, .max 100], some 10⟩,
  ⟨"BODY_LIMIT_URLENCODED", [.min 1, .max 100], some 10⟩,
  ⟨"DB_PORT", [.min 1, .max 65535], none⟩,
  ⟨"JWT_EXPIRY", [.positive], some 3600⟩,
  ⟨"SLOW_QUERY_THRESHOLD_MS", [.positive], some 1000⟩,
  ⟨"REFRESH_TOKEN_EXPIRY", [.positive], some 604800⟩,
  ⟨"OTP_EXPIRY", [.positive], some 300⟩,
  ⟨"MAIL_PORT", [.min 1, .max 65535], none⟩,
  ⟨"REDIS_PORT", [.min 1, .max 65535], some 6379⟩,
  ⟨"RATE_LIMIT_WINDOW_MS", [.positive], some 60000⟩,
  ⟨"RATE_LIMIT_MAX_REQUESTS", [.positive], some 100⟩,
  ⟨"IDEMPOTENCY_TTL_HOURS", [.int, .positive], some 24⟩,
  ⟨"ARCHIVE_THRESHOLD_MONTHS", [.int, .min 1, .max 120], some 12⟩,
  ⟨"ARCHIVE_BATCH_SIZE", [.int, .min 10, .max 5000], some 500⟩,
  ⟨"CACHE_EXCHANGE_RATE_TTL_SECONDS", [.int, .positive], some 60⟩,
  ⟨"CACHE_SUPPORTED_CURRENCIES_TTL_SECONDS", [.int, .positive], some 86400⟩,
  ⟨"CACHE_ADMIN_STATS_TTL_SECONDS", [.int, .positive], some 60⟩,
  ⟨"WEBHOOK_MAX_ATTEMPTS", [.int, .positive], some 5⟩,
  ⟨"WEBHOOK_BACKOFF_DELAY_MS", [.int, .positive], some 1000⟩,
  ⟨"WEBHOOK_REPLAY_WINDOW_HOURS", [.int, .positive], some 24⟩,
  ⟨"EXTERNAL_API_TIMEOUT", [.positive], some 30000⟩,
  ⟨"REFERRAL_REWARD_AMOUNT", [.nonnegative], some 10⟩,
  ⟨"REFERRAL_MAX_REFERRALS", [.int, .nonnegative], some 100⟩,
  ⟨"ADMIN_ALERT_RATE_LIMIT_MINUTES", [.int, .positive], some 15⟩,
  ⟨"AML_STRUCTURING_THRESHOLD", [.nonnegative], some 10000⟩,
  ⟨"AML_STRUCTURING_WINDOW_HOURS", [.int, .nonnegative], some 24⟩,
  ⟨"AML_STRUCTURING_MIN_COUNT", [.int, .nonnegative], some 3⟩,
  ⟨"AML_SMURFING_WINDOW_HOURS", [.int, .nonnegative], some 1⟩,
  ⟨"AML_SMURFING_MIN_WALLETS", [.int, .nonnegative], some 3⟩,
  ⟨"AML_SMURFING_VARIANCE_PCT", [.nonnegative], some 5⟩,
  ⟨"AML_VELOCITY_WINDOW_HOURS", [.int, .nonnegative], some 1⟩,
  ⟨"AML_VELOCITY_MAX_COUNT", [.int, .nonnegative], some 10⟩,
  ⟨"AML_RISK_SCORE_WEIGHT", [.int, .nonnegative], some 30⟩,
  ⟨"FX_REVERSAL_WINDOW_MINUTES", [.int, .nonnegative], some 5⟩,
  ⟨"SWAP_SLIPPAGE_PERCENT", [.positive, .max (Js.roundDouble 0.1)], some (Js.roundDouble 0.005)⟩,
  ⟨"SWAP_PREVIEW_CACHE_TTL_SECONDS", [.int, .positive], some 30⟩,
  ⟨"PENDING_TX_TIMEOUT_MINUTES", [.int, .positive], some 30⟩,
  ⟨"THROTTLE_AUTH_LIMIT", [.int, .positive], some 5⟩,
  -- the second of its two entries
  ⟨"WALLET_BALANCE_CACHE_TTL_SECONDS", [.int, .positive], some 30⟩]

/-- The number of UTF-16 code units. -/
def length16 (text : List Char) : ℕ := (text.map fun c => if c.toNat < 0x10000 then 1 else 2).sum

def isHex (c : Char) : Bool := c.isDigit || ('a' ≤ c && c ≤ 'f') || ('A' ≤ c && c ≤ 'F')

section Schema

variable (isEmail isUrl : List Char → Bool)

/-- The texts that the schema restricts: may the variable be absent, and what
does it accept. -/
def textFields : List (String × Bool × (List Char → Bool)) := [
  ("NODE_ENV", true, fun text =>
    text ∈ ["development".toList, "production".toList, "test".toList]),
  ("LOG_LEVEL", true, fun text =>
    text ∈ ["fatal".toList, "error".toList, "warn".toList, "info".toList, "debug".toList,
      "trace".toList]),
  ("DB_HOST", false, fun text => 1 ≤ length16 text),
  ("DB_USER", false, fun text => 1 ≤ length16 text),
  ("DB_PASSWORD", false, fun text => 1 ≤ length16 text),
  ("DB_NAME", false, fun text => 1 ≤ length16 text),
  ("JWT_SECRET", false, fun text => 32 ≤ length16 text),
  ("REFRESH_TOKEN_SECRET", false, fun text => 32 ≤ length16 text),
  ("OTP_SECRET", false, fun text => 32 ≤ length16 text),
  ("MAIL_HOST", false, fun text => 1 ≤ length16 text),
  ("MAIL_USER", false, isEmail),
  ("MAIL_PASSWORD", false, fun text => 1 ≤ length16 text),
  ("MAIL_FROM", false, isEmail),
  ("IDEMPOTENCY_CLEANUP_CRON", true, fun text => 1 ≤ length16 text),
  ("ARCHIVE_CRON", true, fun text => 1 ≤ length16 text),
  ("SUPPORTED_CURRENCIES", true, fun text => 1 ≤ length16 text),
  ("TERMS_CURRENT_VERSION", true, fun text => 1 ≤ length16 text),
  ("ADMIN_ALERT_EMAIL", true, isEmail),
  ("ADMIN_ALERT_SLACK_WEBHOOK_URL", true, isUrl),
  ("WALLET_ENCRYPTION_KEY", false, fun text => text.length = 64 && text.all isHex),
  ("STELLAR_HOT_WALLET_SECRET", false, fun text => 1 ≤ length16 text)]

/-- `envSchema.parse` succeeds. -/
def validateEnv (env : Env) : Bool :=
  (numberFields.all fun field => (field.parse env).isSome) &&
    (textFields isEmail isUrl).all fun (name, optional, check) => (env name).elim optional check

end Schema

/-! ## The configuration -/

inductive Reader where
  | parseInt
  | parseFloat
  deriving DecidableEq

def Reader.read : Reader → List Char → Js.Num
  | .parseInt, text => Js.parseInt text
  | .parseFloat, text => Js.parseFloat text

/-- The number at `path` is `reader(process.env[name] || fallback)`, in
megabytes times 1024 * 1024. -/
structure Setting where
  path : String
  name : String
  reader : Reader
  fallback : String
  megabytes : Bool
  deriving DecidableEq

def Setting.inUnit (setting : Setting) (x : Js.Num) : Js.Num :=
  if setting.megabytes then (x.shiftUp 10).shiftUp 10 else x

/-- `process.env[name] || fallback` -/
def Setting.text (setting : Setting) (env : Env) : List Char :=
  match env setting.name with
  | some (c :: text) => c :: text
  | _ => setting.fallback.toList

def Setting.value (setting : Setting) (env : Env) : Js.Num :=
  setting.inUnit (setting.reader.read (setting.text env))

def configuration : List Setting := [
  ⟨"app.port", "PORT", .parseInt, "3000", false⟩,
  ⟨"limits.json", "BODY_LIMIT_JSON", .parseInt, "10", true⟩,
  ⟨"limits.urlencoded", "BODY_LIMIT_URLENCODED", .parseInt, "10", true⟩,
  ⟨"database.port", "DB_PORT", .parseInt, "5432", false⟩,
  ⟨"jwt.expiry", "JWT_EXPIRY", .parseInt, "3600", false⟩,
  ⟨"slowQueryThresholdMs", "SLOW_QUERY_THRESHOLD_MS", .parseInt, "1000", false⟩,
  ⟨"refreshToken.expiry", "REFRESH_TOKEN_EXPIRY", .parseInt, "604800", false⟩,
  ⟨"otp.expiry", "OTP_EXPIRY", .parseInt, "300", false⟩,
  ⟨"externalApi.timeout", "EXTERNAL_API_TIMEOUT", .parseInt, "30000", false⟩,
  ⟨"mail.port", "MAIL_PORT", .parseInt, "587", false⟩,
  ⟨"redis.port", "REDIS_PORT", .parseInt, "6379", false⟩,
  ⟨"rateLimit.windowMs", "RATE_LIMIT_WINDOW_MS", .parseInt, "60000", false⟩,
  ⟨"rateLimit.maxRequests", "RATE_LIMIT_MAX_REQUESTS", .parseInt, "100", false⟩,
  ⟨"idempotency.ttlHours", "IDEMPOTENCY_TTL_HOURS", .parseInt, "24", false⟩,
  ⟨"archive.thresholdMonths", "ARCHIVE_THRESHOLD_MONTHS", .parseInt, "12", false⟩,
  ⟨"archive.batchSize", "ARCHIVE_BATCH_SIZE", .parseInt, "500", false⟩,
  ⟨"cache.exchangeRateTtlSeconds", "CACHE_EXCHANGE_RATE_TTL_SECONDS", .parseInt, "60", false⟩,
  ⟨"cache.supportedCurrenciesTtlSeconds", "CACHE_SUPPORTED_CURRENCIES_TTL_SECONDS", .parseInt,
    "86400", false⟩,
  ⟨"cache.adminStatsTtlSeconds", "CACHE_ADMIN_STATS_TTL_SECONDS", .parseInt, "60", false⟩,
  ⟨"cache.defaultTtlSeconds", "CACHE_EXCHANGE_RATE_TTL_SECONDS", .parseInt, "60", false⟩,
  ⟨"webhooks.maxAttempts", "WEBHOOK_MAX_ATTEMPTS", .parseInt, "5", false⟩,
  ⟨"webhooks.backoffDelayMs", "WEBHOOK_BACKOFF_DELAY_MS", .parseInt, "1000", false⟩,
  ⟨"webhooks.replayWindowHours", "WEBHOOK_REPLAY_WINDOW_HOURS", .parseInt, "24", false⟩,
  ⟨"referral.rewardAmount", "REFERRAL_REWARD_AMOUNT", .parseFloat, "10", false⟩,
  ⟨"referral.maxReferrals", "REFERRAL_MAX_REFERRALS", .parseInt, "100", false⟩,
  ⟨"aml.structuringThreshold", "AML_STRUCTURING_THRESHOLD", .parseFloat, "10000", false⟩,
  ⟨"aml.structuringWindowHours", "AML_STRUCTURING_WINDOW_HOURS", .parseInt, "24", false⟩,
  ⟨"aml.structuringMinCount", "AML_STRUCTURING_MIN_COUNT", .parseInt, "3", false⟩,
  ⟨"aml.smurfingWindowHours", "AML_SMURFING_WINDOW_HOURS", .parseInt, "1", false⟩,
  ⟨"aml.smurfingMinWallets", "AML_SMURFING_MIN_WALLETS", .parseInt, "3", false⟩,
  ⟨"aml.smurfingAmountVariancePct", "AML_SMURFING_VARIANCE_PCT", .parseFloat, "5", false⟩,
  ⟨"aml.velocityBurstWindowHours", "AML_VELOCITY_WINDOW_HOURS", .parseInt, "1", false⟩,
  ⟨"aml.velocityBurstMaxCount", "AML_VELOCITY_MAX_COUNT", .parseInt, "10", false⟩,
  ⟨"aml.riskScoreWeight", "AML_RISK_SCORE_WEIGHT", .parseInt, "30", false⟩,
  ⟨"fx.reversalWindowMinutes", "FX_REVERSAL_WINDOW_MINUTES", .parseInt, "5", false⟩,
  ⟨"swap.slippagePercent", "SWAP_SLIPPAGE_PERCENT", .parseFloat, "0.005", false⟩,
  ⟨"swap.previewCacheTtlSeconds", "SWAP_PREVIEW_CACHE_TTL_SECONDS", .parseInt, "30", false⟩,
  ⟨"scheduledJobs.pendingTxTimeoutMinutes", "PENDING_TX_TIMEOUT_MINUTES", .parseInt, "30", false⟩,
  ⟨"throttleAuth.limit", "THROTTLE_AUTH_LIMIT", .parseInt, "5", false⟩]

end EnvConfig

end NexaFx
