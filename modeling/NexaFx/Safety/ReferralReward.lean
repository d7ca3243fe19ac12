import NexaFx.Lib.Exclusive
import NexaFx.Safety.ReferralLedger

/-!
# NexaFx — paying a referral reward

`rewardReferral` calls, interleaved at every await. The status is checked on a
row that is read without a lock, and the credit commits before the reward and
the referral are saved.

When the calls on a referral do not overlap and nothing after the credit fails,
the referral is paid once and exactly when it is recorded (`reward_recorded`).
Two calls that both read the QUALIFIED row pay twice, and a failure after the
credit leaves it unrecorded (`reward_paid_twice`).
-/

namespace NexaFx

open Async Decimal

namespace Referrals

abbrev RewardConfig :=
  Config ℕ ReferralCmd ReferralCmd.Reply Err ReferralDb (Referral × ReferralReward)

-- ---------------------------------------------------------------------------
-- The property
-- ---------------------------------------------------------------------------

/-- What the referrer has been credited for the referral, in hundredths. -/
def credited (st : ReferralDb) (row : Referral) : ℤ :=
  st.db.net (fun m => decide (m.tx = row.id)) row.referrerId "USD"

/-- The PAID rewards of a referral. -/
def paidRewards (st : ReferralDb) (id : ℕ) : ℕ :=
  st.rewards.countP fun r => decide (r.referralId = id ∧ r.status = .paid)

/-- The referral is stored QUALIFIED, and nothing has been paid for it. -/
structure Unpaid (id : ℕ) (row : Referral) (st : ReferralDb) : Prop where
  found : st.referral id = some row
  status : row.status = .qualified
  credited : credited st row = 0
  rewards : paidRewards st id = 0

/-- It is stored REWARDED with one PAID reward, and the amount has been credited. -/
structure PaidOut (config : ReferralConfig) (id : ℕ) (row : Referral) (st : ReferralDb) :
    Prop where
  found : st.referral id = some row
  status : row.status = .rewarded
  credited : credited st row = shift (100 * config.amount)
  rewards : paidRewards st id = 1

/-- The calls on a referral. -/
def onReferral (id : ℕ) (k : ℕ) : Bool := decide (k = id)

structure PaidAsRecorded (config : ReferralConfig) (id : ℕ) (cfg : RewardConfig) : Prop where
  /-- At no moment has more been credited than the amount. -/
  once : ∃ row, cfg.state.referral id = some row ∧
    (credited cfg.state row = 0 ∨ credited cfg.state row = shift (100 * config.amount))
  /-- When no call on the referral is on its way, it is paid out or unpaid. -/
  recorded : cfg.Vacant (onReferral id) →
    ∃ row, Unpaid id row cfg.state ∨ PaidOut config id row cfg.state

/-- What a call has to carry out once the credit is committed. -/
def ReferralCmd.afterCredit : ReferralCmd → Bool
  | .managerSaveReward _ | .managerSaveReferral _ | .commit _ _ => true
  | _ => false

/-- The calls on the referral do not overlap, and nothing after a credit fails. -/
def oneReward (id : ℕ) :
    Discipline ℕ ReferralCmd ReferralCmd.Reply Err ReferralDb (Referral × ReferralReward) where
  onCall _ _ _ := True
  onStep cfg th c failed := th.call = id →
    (th.begun = false → cfg.Vacant (onReferral id)) ∧ (c.afterCredit = true → failed = false)

-- ---------------------------------------------------------------------------
-- One referral among the others
-- ---------------------------------------------------------------------------

/-- What calls on other referrals leave. -/
structure Apart (id : ℕ) (st st' : ReferralDb) : Prop where
  row : st'.referral id = st.referral id
  credits : ∀ a c, st'.db.net (fun m => decide (m.tx = id)) a c =
    st.db.net (fun m => decide (m.tx = id)) a c
  rewards : paidRewards st' id = paidRewards st id

/-- A call on another referral. -/
def Aside (id : ℕ) : ReferralCmd → Prop
  | .insert referral => referral.id ≠ id
  | .save referral => referral.id ≠ id
  | .adjustBalance _ referralId _ _ _ => referralId ≠ id
  | .commit reward referral => reward.referralId ≠ id ∧ referral.id ≠ id
  | _ => True

/-- What a lookup finds has the key that was looked for. -/
def Answers : (c : ReferralCmd) → c.Reply → Prop
  | .findReferral id, found => ∀ row, found = some row → row.id = id
  | .managerSaveReward reward, stored => stored.referralId = reward.referralId
  | _, _ => True

/-- The referral is QUALIFIED while a call is at work on it; `cents` have been
credited. -/
structure Working (id : ℕ) (row : Referral) (cents : ℤ) (st : ReferralDb) : Prop where
  found : st.referral id = some row
  status : row.status = .qualified
  credited : credited st row = cents
  rewards : paidRewards st id = 0

section Commands

variable {config : ReferralConfig} {id : ℕ} {row : Referral} {cents : ℤ}
  {st st' st'' : ReferralDb}

theorem Apart.refl (id : ℕ) (st : ReferralDb) : Apart id st st := ⟨rfl, fun _ _ => rfl, rfl⟩

theorem Apart.trans (h : Apart id st st') (h' : Apart id st' st'') : Apart id st st'' :=
  ⟨h'.row.trans h.row, fun a c => (h'.credits a c).trans (h.credits a c),
    h'.rewards.trans h.rewards⟩

theorem Apart.credited (h : Apart id st st') (hrow : st.referral id = some row) :
    credited st' row = credited st row := by
  obtain ⟨-, rfl⟩ := mem_of_referral hrow
  exact h.credits _ _

theorem Unpaid.apart (h : Unpaid id row st) (ha : Apart id st st') : Unpaid id row st' :=
  ⟨ha.row.trans h.found, h.status, (ha.credited h.found).trans h.credited,
    ha.rewards.trans h.rewards⟩

theorem PaidOut.apart (h : PaidOut config id row st) (ha : Apart id st st') :
    PaidOut config id row st' :=
  ⟨ha.row.trans h.found, h.status, (ha.credited h.found).trans h.credited,
    ha.rewards.trans h.rewards⟩

theorem Working.apart (h : Working id row cents st) (ha : Apart id st st') :
    Working id row cents st' :=
  ⟨ha.row.trans h.found, h.status, (ha.credited h.found).trans h.credited,
    ha.rewards.trans h.rewards⟩

/-- What a carried out credit does. -/
theorem exec_adjustBalance {call referralId : ℕ} {a : UserId} {c : String} {delta : ℚ}
    {u : Unit} (h : exec (.adjustBalance call referralId a c delta) st = .ok (u, st')) :
    ∃ db, st' = { st with db := db } ∧ st.db.Adjusted call referralId a c delta db := by
  simp only [exec] at h
  cases hadjust : st.db.adjustBalance call referralId a c delta with
  | error e =>
    rw [hadjust] at h
    cases h
  | ok r =>
    rw [hadjust] at h
    cases h
    exact ⟨r.2, rfl, Db.adjustBalance_ok hadjust⟩

theorem exec_commit {reward : ReferralReward} {referral : Referral} {u : Unit}
    (h : exec (.commit reward referral) st = .ok (u, st')) :
    st' = st.settle referral reward st.db := by
  simp only [exec] at h
  cases hsave : st.save referral with
  | error e =>
    rw [hsave] at h
    cases h
  | ok st₁ =>
    rw [hsave] at h
    obtain ⟨-, rfl⟩ := save_ok hsave
    cases h
    rfl

/-- A written row of another referral. -/
theorem apart_put (referral : Referral) (hne : referral.id ≠ id) : Apart id st (st.put referral) :=
  ⟨(referral_put _ _ _).trans (if_neg hne), fun _ _ => rfl, rfl⟩

theorem apart_of_aside {c : ReferralCmd} {a : c.Reply} (hc : Aside id c)
    (h : exec c st = .ok (a, st')) : Apart id st st' := by
  cases c with
  | insert referral =>
    rw [exec] at h
    split at h
    · cases h
    · rename_i hinsert
      cases h
      obtain ⟨-, -, rfl⟩ := insert_ok hinsert
      exact apart_put (referral.stamp st.db.now) hc
  | save referral =>
    rw [exec] at h
    split at h
    · cases h
    · rename_i hsave
      cases h
      obtain ⟨-, rfl⟩ := save_ok hsave
      exact apart_put _ hc
  | adjustBalance call referralId account currency delta =>
    obtain ⟨db, rfl, hadjusted⟩ := exec_adjustBalance h
    refine ⟨rfl, fun a c => ?_, rfl⟩
    have hnet := hadjusted.net (fun m => decide (m.tx = id)) a c
    have hne : referralId ≠ id := hc
    rw [if_neg (by simp [hne]), add_zero] at hnet
    exact hnet
  | commit reward referral =>
    obtain rfl := exec_commit h
    refine ⟨(referral_put _ _ _).trans (if_neg hc.2), fun _ _ => rfl, ?_⟩
    have hne : ¬ (reward.referralId = id ∧ reward.status = .paid) := fun h => hc.1 h.1
    simp [paidRewards, ReferralDb.settle, hne]
  | findUser userId =>
    rw [exec] at h
    split at h
    · cases h
      exact .refl _ _
    · cases h
  | managerSaveReferral referral =>
    rw [exec] at h
    split at h
    · cases h
    · cases h
      exact .refl _ _
  | tick ms =>
    cases h
    exact ⟨rfl, fun _ _ => rfl, rfl⟩
  | _ =>
    cases h
    exact .refl _ _

theorem exec_answers {c : ReferralCmd} {a : c.Reply} (h : exec c st = .ok (a, st')) :
    Answers c a := by
  cases c with
  | findReferral id =>
    cases h
    exact fun row hrow => (mem_of_referral hrow).2
  | managerSaveReward reward =>
    cases h
    rfl
  | _ => trivial

/-- The credit of the referral itself. -/
theorem Working.credit (h : Working id row 0 st) {call : ℕ} {db : Db}
    (hadjusted : st.db.Adjusted call row.id row.referrerId "USD" config.amount db) :
    Working id row (shift (100 * config.amount)) { st with db := db } := by
  refine ⟨h.found, h.status, ?_, h.rewards⟩
  have hnet := hadjusted.net (fun m => decide (m.tx = row.id)) row.referrerId "USD"
  have hzero : st.db.net (fun m => decide (m.tx = row.id)) row.referrerId "USD" = 0 := h.credited
  rw [hzero, zero_add, if_pos ⟨by simp, rfl, usd_normalized⟩] at hnet
  exact hnet

/-- The commit records what has been credited. -/
theorem Working.settle (h : Working id row (shift (100 * config.amount)) st) (i : ℕ)
    (t t' t'' : Time) :
    PaidOut config id (row.rewarded t)
      (st.settle (row.rewarded t) ((createReward i row.id config.amount t').stamp t'') st.db) := by
  obtain ⟨-, hid⟩ := mem_of_referral h.found
  refine ⟨(referral_put _ _ _).trans (if_pos hid), rfl, h.credited, ?_⟩
  have hmore : paidRewards (st.settle (row.rewarded t)
      ((createReward i row.id config.amount t').stamp t'') st.db) id = paidRewards st id + 1 := by
    simp [paidRewards, ReferralDb.settle, createReward, ReferralReward.stamp, hid]
  rw [hmore, h.rewards]

end Commands

-- ---------------------------------------------------------------------------
-- The calls, await by await
-- ---------------------------------------------------------------------------

/-- The calls on one referral, as a section. -/
def rewarding (config : ReferralConfig) (id : ℕ) :
    Section ReferralCmd ReferralCmd.Reply Err ReferralDb where
  exec := exec
  mayFail := fun c => decide (c ≠ .now)
  allows c failed _ := c.afterCredit = true → failed = false
  rely := Apart id
  safe st := ∃ row, st.referral id = some row ∧
    (credited st row = 0 ∨ credited st row = shift (100 * config.amount))
  rest st := ∃ row, Unpaid id row st ∨ PaidOut config id row st

section Programs

variable {config : ReferralConfig} {id : ℕ} {row : Referral} {cents : ℤ} {st : ReferralDb}

theorem rest_apart {st' : ReferralDb} (h : (rewarding config id).rest st) (ha : Apart id st st') :
    (rewarding config id).rest st' := by
  obtain ⟨row, hunpaid | hpaid⟩ := h
  · exact ⟨row, Or.inl (hunpaid.apart ha)⟩
  · exact ⟨row, Or.inr (hpaid.apart ha)⟩

theorem safe_of_rest (h : (rewarding config id).rest st) : (rewarding config id).safe st := by
  obtain ⟨row, hunpaid | hpaid⟩ := h
  · exact ⟨row, hunpaid.found, Or.inl hunpaid.credited⟩
  · exact ⟨row, hpaid.found, Or.inr hpaid.credited⟩

theorem Working.unpaid (h : Working id row 0 st) : (rewarding config id).rest st :=
  ⟨row, Or.inl ⟨h.found, h.status, h.credited, h.rewards⟩⟩

/-- A call on the referral. -/
theorem rewardReferral_secures (config : ReferralConfig) (i : ℕ)
    (h : (rewarding config id).rest st) :
    (rewardReferral config i id).Secures (rewarding config id)
      (fun _ => (rewarding config id).rest) st := by
  have hstable : ∀ row cents st st', Working id row cents st → Apart id st st' →
      Working id row cents st' := fun _ _ _ _ hw ha => hw.apart ha
  have hunpaid : ∀ row st, Working id row 0 st → (rewarding config id).safe st :=
    fun row _ hw => ⟨row, hw.found, Or.inl hw.credited⟩
  have hpaid : ∀ row st, Working id row (shift (100 * config.amount)) st →
      (rewarding config id).safe st := fun row _ hw => ⟨row, hw.found, Or.inr hw.credited⟩
  unfold rewardReferral
  refine Proc.secures_call_bind (A := (rewarding config id).rest) h
    (fun _ _ h ha => rest_apart h ha) (fun _ h => safe_of_rest h)
    (fun st found st' h _ hexec => ?_) fun _ _ h _ _ => h
  have hst : st' = st := by
    cases hexec
    rfl
  have hfound : found = st.referral id := by
    cases hexec
    rfl
  subst hst
  cases found with
  | none => exact h
  | some row =>
    refine Proc.secures_rejectWhen_bind (fun _ => h) fun hqualified => ?_
    have hworking : Working id row 0 st' := by
      obtain ⟨row', hunpaid | hpaid⟩ := h
      · obtain rfl := Option.some.inj (hfound.trans hunpaid.found)
        exact ⟨hunpaid.found, hunpaid.status, hunpaid.credited, hunpaid.rewards⟩
      · obtain rfl := Option.some.inj (hfound.trans hpaid.found)
        exact absurd (hpaid.status.symm.trans (not_not.mp hqualified)) (by simp)
    refine Proc.secures_call_bind (A := Working id row 0) hworking (hstable row 0) (hunpaid row)
      (fun st _ st' hw _ hexec => ?_) fun _ _ hw _ _ => hw.unpaid
    cases hexec
    refine Proc.secures_call_bind (A := Working id row 0) hw (hstable row 0) (hunpaid row)
      (fun st u st' hw _ hexec => ?_) fun _ _ hw _ _ => hw.unpaid
    -- the credit is committed: from here on everything has to be carried out
    have hcredit : exec (.adjustBalance i row.id row.referrerId "USD" config.amount) st =
        .ok (u, st') := hexec
    obtain ⟨db, rfl, hadjusted⟩ := exec_adjustBalance hcredit
    have hw := hw.credit hadjusted
    refine Proc.secures_call_bind (A := Working id row _) hw (hstable row _) (hpaid row)
      (fun st paidAt st' hw _ hexec => ?_) fun _ _ _ _ hcan => ?_
    · cases hexec
      refine Proc.secures_call_bind (A := Working id row _) hw (hstable row _) (hpaid row)
        (fun st reward st' hw _ hexec => ?_) fun _ _ _ hallow _ => ?_
      · cases hexec
        refine Proc.secures_call_bind (A := Working id row _) hw (hstable row _) (hpaid row)
          (fun st rewardedAt st' hw _ hexec => ?_) fun _ _ _ _ hcan => ?_
        · cases hexec
          refine Proc.secures_call_bind (A := Working id row _) hw (hstable row _) (hpaid row)
            (fun st _ st' hw _ hexec => ?_) fun _ _ _ hallow _ => ?_
          · have hst : Apart id st st' :=
              apart_of_aside (c := .managerSaveReferral (row.rewarded _)) trivial hexec
            have hw := hw.apart hst
            refine Proc.secures_call_bind (A := Working id row _) hw (hstable row _) (hpaid row)
              (fun st _ st' hw _ hexec => ?_) fun _ _ _ hallow _ => ?_
            · obtain rfl := exec_commit hexec
              exact ⟨_, Or.inr (hw.settle i _ _ _)⟩
            · cases hallow rfl
          · cases hallow rfl
        · rcases hcan with hcan | hcan <;> cases hcan
      · cases hallow rfl
    · rcases hcan with hcan | hcan <;> cases hcan

/-- A call on another referral. -/
theorem rewardReferral_aside (config : ReferralConfig) (i : ℕ) {other : ℕ} (hother : other ≠ id) :
    (rewardReferral config i other).Always Answers fun c _ => Aside id c := by
  unfold rewardReferral
  simp only [Proc.bind_eq]
  refine Proc.always_call_bind trivial fun found hfound => ?_
  cases found with
  | none => exact .done _
  | some row =>
    have hne : row.id ≠ id := by
      rw [hfound row rfl]
      exact hother
    refine Proc.always_rejectWhen_bind fun _ => ?_
    refine Proc.always_call_bind trivial fun _ _ => ?_
    refine Proc.always_call_bind hne fun _ _ => ?_
    refine Proc.always_call_bind trivial fun _ _ => ?_
    refine Proc.always_call_bind trivial fun reward hreward => ?_
    refine Proc.always_call_bind trivial fun _ _ => ?_
    refine Proc.always_call_bind trivial fun _ _ => ?_
    have hreward' : reward.referralId ≠ id := by
      rw [hreward]
      exact hne
    exact Proc.always_call_bind (Q := fun c _ => Aside id c) (c := .commit reward _)
      ⟨hreward', hne⟩ fun _ _ => .done _

end Programs

-- ---------------------------------------------------------------------------
-- All calls together
-- ---------------------------------------------------------------------------

/-- The calls on one referral are a critical section. -/
theorem rewarding_exclusive (config : ReferralConfig) (id : ℕ) :
    Exclusive (rewardServer config) (oneReward id) (rewarding config id) (onReferral id) Answers
      fun _ _ c => Aside id c where
  exec := rfl
  mayFail := rfl
  refl := Apart.refl id
  trans _ _ _ h h' := h.trans h'
  safe _ h := safe_of_rest h
  rest _ _ h ha := rest_apart h ha
  secures i k st hk h := by
    obtain rfl : k = id := of_decide_eq_true hk
    exact rewardReferral_secures config i h
  replied _ _ _ _ h := exec_answers h
  issues i k hk := rewardReferral_aside config i (of_decide_eq_false hk)
  others _ _ _ _ _ _ _ hc h := apart_of_aside hc h
  allows _ _ _ _ hk hD := (hD (of_decide_eq_true hk)).2
  alone _ _ _ _ hk hbegun hD := (hD (of_decide_eq_true hk)).1 hbegun

/-- **A reward is paid exactly when it is recorded.** -/
theorem reward_recorded {config : ReferralConfig} {id : ℕ} {row : Referral}
    {cfg₀ cfg : RewardConfig} (hnil : cfg₀.threads = []) (hunpaid : Unpaid id row cfg₀.state)
    (h : Reach (rewardServer config) (oneReward id) cfg₀ cfg) : PaidAsRecorded config id cfg := by
  have hsection := h.exclusive (rewarding_exclusive config id) hnil ⟨row, Or.inl hunpaid⟩
  exact ⟨hsection.1, hsection.2⟩

-- ---------------------------------------------------------------------------
-- One referral
-- ---------------------------------------------------------------------------

/-- User 1 has referred user 2. -/
def qualifiedRow : Referral := ⟨0, 1, 2, "REF-3F2504E0-MJUOHS00", .qualified, 0, some 0, none⟩

def oneQualified : RewardConfig := ⟨⟨[qualifiedRow], [], .deployed []⟩, []⟩

theorem qualifiedRow_unpaid : Unpaid 0 qualifiedRow oneQualified.state :=
  ⟨rfl, rfl, rfl, rfl⟩

/-- What is observed of the referral: the credit, the status and the PAID rewards. -/
def observed (cfg : RewardConfig) : Option (ℤ × ReferralStatus × ℕ) :=
  (cfg.state.referral 0).map fun row =>
    (credited cfg.state row, row.status, paidRewards cfg.state 0)

/-- The first call fails when it opens its transaction, the second goes through. -/
def rewardedAtSecond : List (Event ℕ Err) :=
  [.call 0 0, .step 0 none, .step 0 (some .fault), .call 1 0] ++
    List.replicate 8 (.step 1 none)

theorem reward_recorded_second :
    ∃ cfg, Reach (rewardServer defaults) (oneReward 0) oneQualified cfg ∧
      PaidAsRecorded defaults 0 cfg ∧ observed cfg = some (1000, .rewarded, 1) := by
  have hrun : ((rewardServer defaults).runChecked (fun cfg th c failed =>
      (th.begun || cfg.idle) && (!c.afterCredit || !failed)) oneQualified rewardedAtSecond).map
        observed = some (some (1000, .rewarded, 1)) := by decide +kernel
  obtain ⟨cfg, hcfg, hobserved⟩ := Option.map_eq_some_iff.mp hrun
  have hreach : Reach (rewardServer defaults) (oneReward 0) oneQualified cfg := by
    refine Reach.of_runChecked .refl (fun _ _ _ _ => trivial) ?_ hcfg
    intro cfg th c failed hcheck _
    simp only [Bool.and_eq_true, Bool.or_eq_true, Bool.not_eq_true'] at hcheck
    refine ⟨fun hbegun => ?_, fun hafter => hcheck.2.resolve_left (by simp [hafter])⟩
    exact Config.vacant_of_idle (hcheck.1.resolve_left (by simp [hbegun])) _
  exact ⟨cfg, hreach, reward_recorded rfl qualifiedRow_unpaid hreach, hobserved⟩

/-- Both calls read the row before either has paid. -/
def rewardedAtOnce : List (Event ℕ Err) :=
  [.call 0 0, .call 1 0, .step 0 none, .step 1 none] ++ List.replicate 7 (.step 0 none) ++
    List.replicate 7 (.step 1 none)

/-- The reward is not saved once the credit is committed. -/
def notSaved : List (Event ℕ Err) :=
  .call 0 0 :: List.replicate 4 (.step 0 none) ++ [.step 0 (some .fault)]

/-- One referral is paid for twice; and one is paid for, and still QUALIFIED. -/
theorem reward_paid_twice :
    (∃ cfg, Reach (rewardServer defaults) .free oneQualified cfg ∧
      ¬ PaidAsRecorded defaults 0 cfg ∧ observed cfg = some (2000, .rewarded, 2)) ∧
    ∃ cfg, Reach (rewardServer defaults) .free oneQualified cfg ∧
      ¬ PaidAsRecorded defaults 0 cfg ∧ observed cfg = some (1000, .qualified, 0) := by
  have hamount : shift (100 * defaults.amount) = 1000 := by norm_num [shift, defaults, ReferralConfig.amount]
  constructor
  · have hbroken : ∀ cfg, observed cfg = some (2000, .rewarded, 2) →
        ¬ PaidAsRecorded defaults 0 cfg := by
      intro cfg hobserved h
      obtain ⟨row, hrow, honce⟩ := h.once
      rw [observed, hrow] at hobserved
      simp only [Option.map_some, Option.some.injEq, Prod.mk.injEq] at hobserved
      rw [hobserved.1, hamount] at honce
      omega
    have hobserved : observed ((rewardServer defaults).play oneQualified rewardedAtOnce) =
        some (2000, .rewarded, 2) := by decide +kernel
    exact ⟨_, Reach.refl.play _, hbroken _ hobserved, hobserved⟩
  · have hbroken : ∀ cfg, observed cfg = some (1000, .qualified, 0) → cfg.idle = true →
        ¬ PaidAsRecorded defaults 0 cfg := by
      intro cfg hobserved hidle h
      obtain ⟨row, hunpaid | hpaid⟩ := h.recorded (Config.vacant_of_idle hidle _)
      · rw [observed, hunpaid.found, Option.map_some, hunpaid.credited] at hobserved
        cases hobserved
      · rw [observed, hpaid.found, Option.map_some, hpaid.status] at hobserved
        simp at hobserved
    have hobserved : observed ((rewardServer defaults).play oneQualified notSaved) =
        some (1000, .qualified, 0) := by decide +kernel
    exact ⟨_, Reach.refl.play _, hbroken _ hobserved (by decide +kernel), hobserved⟩

end Referrals

end NexaFx
