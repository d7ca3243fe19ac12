import NexaFx.Lib.Decimal

/-!
# Fee rules

`evaluate` and `simulate` of `modules/fee/services/fee-engine.service.ts` with
`calculateFee` of `fee-tiers/fee-tiers.service.ts`, as functions of the tables
`fee_rules` and `fee_tiers`. Amounts and fees are exact numbers.

The order that the database gives rules of one priority is open: it is a field
of `Database`, with what `ORDER BY` promises of it.
-/

namespace NexaFx

namespace FeeEngine

open Decimal

inductive KycFeeLevel where
  | basic
  | intermediate
  | advanced
  deriving DecidableEq

structure FeeRuleEntity where
  id : ℕ
  ruleType : String
  promoCode : Option String
  currency : String
  isActive : Bool
  priority : ℤ
  minAmount : Option ℚ
  maxAmount : Option ℚ
  percentage : Option ℚ
  flatFee : Option ℚ
  expiresAt : Option ℕ
  deriving DecidableEq

structure FeeTierEntity where
  id : ℕ
  kycLevel : KycFeeLevel
  currency : String
  tierMin : ℚ
  tierMax : ℚ
  percentageFee : ℚ
  flatFee : ℚ
  isActive : Bool
  deriving DecidableEq

structure AppliedFeeSnapshot where
  ruleId : ℕ
  ruleType : String
  feeAmount : ℚ
  currency : String
  appliedAt : ℕ
  deriving DecidableEq

/-- The rules with their primary key, the tiers, and `ORDER BY priority`. -/
structure Database where
  rules : List FeeRuleEntity
  tiers : List FeeTierEntity
  ids : (rules.map FeeRuleEntity.id).Nodup
  byPriority : List FeeRuleEntity → List FeeRuleEntity
  perm : ∀ rows, (byPriority rows).Perm rows
  sorted : ∀ rows, (byPriority rows).Pairwise fun a b => a.priority ≤ b.priority

/-- `Math.round(x * 1e8) / 1e8` -/
def roundFee (x : ℚ) : ℚ := shift (x * 10 ^ 8) / 10 ^ 8

/-! ## Fee tiers -/

def FeeTierEntity.covers (kycLevel : KycFeeLevel) (currency : String) (amount : ℚ)
    (t : FeeTierEntity) : Bool :=
  t.kycLevel = kycLevel && t.currency = currency && t.isActive &&
    t.tierMin ≤ amount && t.tierMax ≥ amount

structure TierResult where
  tier : Option FeeTierEntity
  feeAmount : ℚ
  totalAmount : ℚ

/-- `FeeTiersService.calculateFee` -/
def tierFee (db : Database) (kycLevel : KycFeeLevel) (currency : String) (amount : ℚ) : TierResult :=
  match db.tiers.find? (·.covers kycLevel currency amount) with
  | none => ⟨none, 0, amount⟩
  | some tier =>
    let percentageFee := if tier.percentageFee > 0 then amount * tier.percentageFee / 100 else 0
    let flatFee := if tier.flatFee > 0 then tier.flatFee else 0
    let feeAmount := roundFee (percentageFee + flatFee)
    ⟨some tier, feeAmount, roundFee (amount + feeAmount)⟩

/-! ## Fee rules -/

/-- The `WHERE` of the query. -/
def FeeRuleEntity.eligible (amount : ℚ) (currency : String) (now : ℕ) (r : FeeRuleEntity) : Bool :=
  r.isActive && r.currency = currency && r.expiresAt.all (now < ·) &&
    r.minAmount.all (· ≤ amount) && r.maxAmount.all (amount ≤ ·)

def Database.rulesFor (db : Database) (amount : ℚ) (currency : String) (now : ℕ) :
    List FeeRuleEntity :=
  db.byPriority (db.rules.filter (·.eligible amount currency now))

def PROMOTIONAL : String := "PROMOTIONAL"

/-- `promoCode ? rules.find(...) : null` -/
def promoRule (rules : List FeeRuleEntity) (promoCode : Option String) : Option FeeRuleEntity :=
  match promoCode with
  | none => none
  | some code =>
    if code = "" then none
    else rules.find? fun r => r.ruleType = PROMOTIONAL && r.promoCode = some code

/-- `promoRule ?? rules[0] ?? null` -/
def applicableRule (rules : List FeeRuleEntity) (promoCode : Option String) :
    Option FeeRuleEntity :=
  (promoRule rules promoCode).or rules.head?

def calculateFee (amount : ℚ) (rule : FeeRuleEntity) : ℚ :=
  roundFee ((rule.percentage.elim 0 fun p => amount * p / 100) + rule.flatFee.getD 0)

def FeeRuleEntity.snapshot (amount : ℚ) (currency : String) (now : ℕ) (rule : FeeRuleEntity) :
    AppliedFeeSnapshot :=
  ⟨rule.id, rule.ruleType, calculateFee amount rule, currency, now⟩

def evaluate (db : Database) (amount : ℚ) (currency : String) (promoCode : Option String)
    (kycLevel : Option KycFeeLevel) (now : ℕ) : Option AppliedFeeSnapshot :=
  match kycLevel.bind fun level => (tierFee db level currency amount).tier.map (level, ·) with
  | some (level, tier) =>
    some ⟨tier.id, "KYC_TIER", (tierFee db level currency amount).feeAmount, currency, now⟩
  | none =>
    (applicableRule (db.rulesFor amount currency now) promoCode).map
      (·.snapshot amount currency now)

structure SimulateFeeDto where
  amount : ℚ
  currency : String
  promoCode : Option String

structure Simulation where
  input : SimulateFeeDto
  appliedFee : Option AppliedFeeSnapshot
  totalAmount : ℚ

/-- `simulate`; without a snapshot the answer has the fee 0 and the type `NONE`. -/
def simulate (db : Database) (dto : SimulateFeeDto) (now : ℕ) : Simulation :=
  let snapshot := evaluate db dto.amount dto.currency dto.promoCode none now
  ⟨dto, snapshot, dto.amount + (snapshot.elim 0 AppliedFeeSnapshot.feeAmount)⟩

end FeeEngine

end NexaFx
