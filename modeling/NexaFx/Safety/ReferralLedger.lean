import NexaFx.Model.Referrals

/-!
# NexaFx — the referral ledger

Calls of the referral service one after the other. `applyCode` writes its
referee and PENDING over whatever row has the code: a row whose referee has been
recorded, or one that has been rewarded already. What the claim about the
ledger asks for holds of a sequence exactly when no call does that, and each
reward that is paid is a whole number of cents (`ledger_integrity_iff`).

* `run_cases` — a call throws and changes nothing, or does one of four things;
* `Kept` — what such a thing leaves of the rows that there were;
* `sequence_keeps` — the same of a sequence, with what has been credited.
-/

namespace NexaFx

open Async Decimal

namespace Referrals

-- ---------------------------------------------------------------------------
-- The property
-- ---------------------------------------------------------------------------

/-- The REWARDED referrals of a referrer. -/
def ReferralDb.rewardedBy (st : ReferralDb) (referrerId : UserId) : ℕ :=
  st.referrals.countP fun r => decide (r.referrerId = referrerId ∧ r.status = .rewarded)

namespace ReferralEntry

/-- The call rewarded the referral. -/
def Rewarded (e : ReferralEntry) (id : ℕ) : Prop :=
  e.call = .rewardReferral id ∧ ∃ r, e.result = .ok r

/-- The call recorded the referee, in the row that it returned. -/
def Applied (e : ReferralEntry) (code : String) (refereeId : UserId) (row : Referral) : Prop :=
  e.call = .applyCode code refereeId ∧ ∃ reward, e.result = .ok (row, reward)

end ReferralEntry

/-- What is asked of the calls `h`, made from the state `st₀` on. -/
structure LedgerIntegrity (config : ReferralConfig) (st₀ : ReferralDb) (h : List ReferralEntry) :
    Prop where
  /-- No two calls reward the same referral. -/
  rewardedOnce : h.Pairwise fun e e' => ∀ id, ¬ (e.Rewarded id ∧ e'.Rewarded id)
  /-- A recorded referee stays the referee of its code. -/
  refereeKept : h.Pairwise fun e e' => ∀ code refereeId row, e.Applied code refereeId row →
    ∃ row', e'.after.findByCode code = some row' ∧ row'.referredId = refereeId
  rewardedFinal : h.Pairwise fun e e' => ∀ id row, e.after.referral id = some row →
    row.status = .rewarded → ∃ row', e'.after.referral id = some row' ∧ row'.status = .rewarded
  notSelf : ∀ e ∈ h, ∀ code refereeId row, e.Applied code refereeId row →
    row.referredId ≠ row.referrerId
  /-- In hundredths, as the balances are. -/
  credited : ∀ e ∈ h, ∀ referrerId,
    (e.after.db.cents referrerId "USD" - st₀.db.cents referrerId "USD" : ℚ) =
      100 * config.amount * e.after.rewardedBy referrerId

/-- An `applyCode` that is not turned away, and the row that has the code. -/
structure Applies (config : ReferralConfig) (st : ReferralDb) (code : String) (refereeId : UserId)
    (row : Referral) : Prop where
  active : config.programActive = true
  user : st.db.userExists refereeId = true
  unreferred : st.findByReferred refereeId = none
  found : st.findByCode code = some row
  room : st.countByReferrer row.referrerId < config.limit

/-- A `rewardReferral` that is not turned away, and its row. -/
structure Pays (config : ReferralConfig) (st : ReferralDb) (id : ℕ) (row : Referral) : Prop where
  found : st.referral id = some row
  qualified : row.status = .qualified
  covered : st.db.Covers row.referrerId "USD" config.amount

/-- The code that a call applies has no referee yet and has not been rewarded. -/
def ReferralEntry.Proper (config : ReferralConfig) (e : ReferralEntry) : Prop :=
  ∀ code refereeId row, e.call = .applyCode code refereeId →
    Applies config e.before code refereeId row →
    row.referredId = row.referrerId ∧ row.status ≠ .rewarded

/-- The call pays no reward that is a fraction of a cent off. -/
def ReferralEntry.Whole (config : ReferralConfig) (e : ReferralEntry) : Prop :=
  ∀ id row, e.call = .rewardReferral id → Pays config e.before id row →
    ∃ cents : ℤ, 100 * config.amount = cents

-- ---------------------------------------------------------------------------
-- The tables
-- ---------------------------------------------------------------------------

/-- Keys, referees and codes are unique, and keys are given out in order. -/
structure Indexed (n : ℕ) (st : ReferralDb) : Prop where
  ids : (st.referrals.map Referral.id).Nodup
  below : ∀ r ∈ st.referrals, r.id < n
  referred : ∀ r ∈ st.referrals, ∀ r' ∈ st.referrals, r.referredId = r'.referredId → r = r'
  codes : ∀ r ∈ st.referrals, ∀ r' ∈ st.referrals, r.referralCode = r'.referralCode → r = r'

section Table

variable {n : ℕ} {st : ReferralDb} {row row' : Referral} {id : ℕ} {code : String}

theorem unique_of_not_violates (h : st.violatesUnique row = false) :
    ∀ r ∈ st.referrals, r.id ≠ row.id →
      r.referredId ≠ row.referredId ∧ r.referralCode ≠ row.referralCode := by
  intro r hr hid
  unfold ReferralDb.violatesUnique at h
  have hr' := List.any_eq_false.mp h r hr
  simp only [ne_eq, hid, not_false_eq_true, true_and, decide_eq_true_eq, not_or] at hr'
  exact hr'

theorem Indexed.put (h : Indexed n st) (row : Referral) (hid : row.id < n)
    (hunique : st.violatesUnique row = false) : Indexed n (st.put row) := by
  have hother := unique_of_not_violates hunique
  refine ⟨Table.nodup_put _ h.ids, fun r hr => ?_, fun r hr r' hr' heq => ?_,
    fun r hr r' hr' heq => ?_⟩
  · rcases Table.mem_put _ hr with rfl | hold
    · exact hid
    · exact h.below r hold
  · rcases Table.mem_put_cases _ h.ids hr with rfl | ⟨hold, hne⟩
    · rcases Table.mem_put_cases _ h.ids hr' with rfl | ⟨hold', hne'⟩
      · rfl
      · exact absurd heq.symm (hother r' hold' hne').1
    · rcases Table.mem_put_cases _ h.ids hr' with rfl | ⟨hold', _⟩
      · exact absurd heq (hother r hold hne).1
      · exact h.referred r hold r' hold' heq
  · rcases Table.mem_put_cases _ h.ids hr with rfl | ⟨hold, hne⟩
    · rcases Table.mem_put_cases _ h.ids hr' with rfl | ⟨hold', hne'⟩
      · rfl
      · exact absurd heq.symm (hother r' hold' hne').2
    · rcases Table.mem_put_cases _ h.ids hr' with rfl | ⟨hold', _⟩
      · exact absurd heq (hother r hold hne).2
      · exact h.codes r hold r' hold' heq

theorem Indexed.mono (h : Indexed n st) {m : ℕ} (hm : n ≤ m) : Indexed m st :=
  ⟨h.ids, fun r hr => lt_of_lt_of_le (h.below r hr) hm, h.referred, h.codes⟩

theorem Indexed.fresh (h : Indexed n st) : st.referral n = none := by
  unfold ReferralDb.referral
  rw [Table.get_eq_none]
  exact fun r hr => (h.below r hr).ne

theorem Indexed.referral_of_mem (h : Indexed n st) (hrow : row ∈ st.referrals) :
    st.referral row.id = some row :=
  Table.get_of_mem _ h.ids hrow

theorem mem_of_referral (h : st.referral id = some row) : row ∈ st.referrals ∧ row.id = id :=
  ⟨Table.mem_of_get _ h, Table.key_of_get _ h⟩

theorem mem_of_findByCode (h : st.findByCode code = some row) :
    row ∈ st.referrals ∧ row.referralCode = code :=
  ⟨Table.mem_of_get _ h, Table.key_of_get _ h⟩

theorem Indexed.findByCode_of_mem (h : Indexed n st) (row : Referral) (hrow : row ∈ st.referrals) :
    st.findByCode row.referralCode = some row := by
  cases hfound : st.findByCode row.referralCode with
  | none => exact absurd rfl ((Table.get_eq_none _).mp hfound row hrow)
  | some r =>
    obtain ⟨hr, hcode⟩ := mem_of_findByCode hfound
    rw [h.codes r hr row hrow hcode]

/-- A loaded row is saved again, when its referee is the old one or new. -/
theorem Indexed.save_loaded (h : Indexed n st) (row' : Referral) (hrow : row ∈ st.referrals)
    (hid : row'.id = row.id) (hcode : row'.referralCode = row.referralCode)
    (hreferred : row'.referredId = row.referredId ∨ st.findByReferred row'.referredId = none) :
    st.violatesUnique row' = false := by
  unfold ReferralDb.violatesUnique
  rw [List.any_eq_false]
  intro r hr
  rw [decide_eq_true_eq]
  rintro ⟨hne, hsame⟩
  have hother : r ≠ row := by
    rintro rfl
    exact hne hid.symm
  rcases hsame with hsame | hsame
  · rcases hreferred with hkept | hnone
    · exact hother (h.referred r hr row hrow (hsame.trans hkept))
    · exact (Table.get_eq_none _).mp hnone r hr hsame
  · exact hother (h.codes r hr row hrow (hsame.trans hcode))

theorem save_eq (h : st.violatesUnique row = false) : st.save row = .ok (st.put row) := by
  rw [ReferralDb.save, h]
  rfl

end Table

-- ---------------------------------------------------------------------------
-- One call
-- ---------------------------------------------------------------------------

/-- The referral is marked, the reward stored, and the wallets are those of `db`. -/
def ReferralDb.settle (st : ReferralDb) (referral : Referral) (reward : ReferralReward) (db : Db) :
    ReferralDb where
  referrals := (st.put referral).referrals
  rewards := st.rewards ++ [reward]
  db := db

/-- What a call does that does not throw. -/
inductive Carried (config : ReferralConfig) (n : ℕ) (st : ReferralDb) :
    ReferralCall → Returned → ReferralDb → Prop
  | generated (row : Referral) (fresh : row.id = n) (new : row.referredId = row.referrerId)
      (pending : row.status = .pending) (unique : st.violatesUnique row = false) :
      Carried config n st (.generateCode row.referrerId) (row, none) (st.put row)
  | applied (code : String) (refereeId : UserId) (row : Referral)
      (applies : Applies config st code refereeId row) :
      Carried config n st (.applyCode code refereeId) (row.applied refereeId, none)
        (st.put (row.applied refereeId))
  | qualified (id : ℕ) (row : Referral) (t : Time) (found : st.referral id = some row)
      (pending : row.status = .pending) :
      Carried config n st (.qualifyReferral id) (row.qualified t, none) (st.put (row.qualified t))
  | rewarded (id : ℕ) (row : Referral) (reward : ReferralReward) (t : Time) (db : Db)
      (pays : Pays config st id row)
      (adjusted : st.db.Adjusted n id row.referrerId "USD" config.amount db) :
      Carried config n st (.rewardReferral id) (row.rewarded t, some reward)
        (st.settle (row.rewarded t) reward db)

section Call

variable {short : UserId → String} {config : ReferralConfig} {n : ℕ} {st : ReferralDb}

theorem usd_supported : validateCurrency "USD" = .ok (normalizeCurrencyCode "USD") := by decide

-- the equations of `exec` are generated here, once for all the calls
attribute [local simp] exec in
theorem generateCode_cases (hidx : Indexed n st) (referrerId : UserId) :
    (∃ e, (prog short config n (.generateCode referrerId)).run exec Proc.noFault st =
      (.error e, st)) ∨
    ∃ r st', (prog short config n (.generateCode referrerId)).run exec Proc.noFault st =
      (.ok r, st') ∧ Carried config n st (.generateCode referrerId) r st' := by
  simp only [prog, generateCode, Proc.bind_eq, Proc.bind_assoc]
  cases huser : st.db.userExists referrerId with
  | false =>
    have hthrows : exec (.findUser referrerId) st =
        .error (.notFound ("User " ++ toString referrerId ++ " not found")) := by
      rw [exec, huser]
      rfl
    exact Or.inl ⟨_, Proc.run_call_bind_error hthrows⟩
  | true =>
    have hfound : exec (.findUser referrerId) st = .ok ((), st) := by
      rw [exec, huser]
      rfl
    rw [Proc.run_call_bind_ok rfl hfound,
      Proc.run_call_bind_ok rfl (show exec .now st = .ok (st.db.now, st) from rfl)]
    -- the row is stored unless its referrer or its code is taken
    let row : Referral := (createReferral n referrerId
      (referralCode short referrerId st.db.now)).stamp st.db.now
    cases hunique : st.violatesUnique row with
    | true =>
      have hthrows : exec (.insert (createReferral n referrerId
          (referralCode short referrerId st.db.now))) st = .error .uniqueViolation := by
        simp only [exec, ReferralDb.insert]
        rw [show ((createReferral n referrerId (referralCode short referrerId st.db.now)).stamp
          st.db.now).id = n from rfl, hidx.fresh, ReferralDb.save, hunique]
        rfl
      exact Or.inl ⟨_, Proc.run_call_bind_error hthrows⟩
    | false =>
      have hstores : exec (.insert (createReferral n referrerId
          (referralCode short referrerId st.db.now))) st = .ok (row, st.put row) := by
        simp only [exec, ReferralDb.insert]
        rw [show ((createReferral n referrerId (referralCode short referrerId st.db.now)).stamp
          st.db.now).id = n from rfl, hidx.fresh, save_eq hunique]
        rfl
      rw [Proc.run_call_bind_ok rfl hstores]
      exact Or.inr ⟨_, _, rfl, .generated row rfl rfl rfl hunique⟩

theorem applyCode_applies (hidx : Indexed n st) {code : String} {refereeId : UserId}
    {row : Referral} (h : Applies config st code refereeId row) :
    (prog short config n (.applyCode code refereeId)).run exec Proc.noFault st =
      (.ok (row.applied refereeId, none), st.put (row.applied refereeId)) := by
  simp only [prog, applyCode, Proc.bind_eq, Proc.bind_assoc]
  have hfound : exec (.findUser refereeId) st = .ok ((), st) := by
    rw [exec, h.user]
    rfl
  obtain ⟨hmem, hcode⟩ := mem_of_findByCode h.found
  have hstores : exec (.save (row.applied refereeId)) st =
      .ok ((), st.put (row.applied refereeId)) := by
    have hunique := hidx.save_loaded (row.applied refereeId) hmem rfl rfl
      (Or.inr h.unreferred)
    simp only [exec, save_eq hunique]
  rw [Proc.run_rejectWhen_bind, if_neg (by simp [h.active]), Proc.run_call_bind_ok rfl hfound,
    Proc.run_call_bind_ok rfl (show exec (.findByReferred refereeId) st =
      .ok (st.findByReferred refereeId, st) from rfl),
    Proc.run_rejectWhen_bind, if_neg (by simp [h.unreferred]),
    Proc.run_call_bind_ok rfl (show exec (.findByCode code) st =
      .ok (st.findByCode code, st) from rfl), h.found]
  simp only [Proc.bind_assoc]
  rw [Proc.run_call_bind_ok rfl (show exec (.countByReferrer row.referrerId) st =
      .ok (st.countByReferrer row.referrerId, st) from rfl),
    Proc.run_rejectWhen_bind, if_neg (not_le.mpr h.room), Proc.run_call_bind_ok rfl hstores]
  rfl

theorem applyCode_cases (hidx : Indexed n st) (code : String) (refereeId : UserId) :
    (∃ e, (prog short config n (.applyCode code refereeId)).run exec Proc.noFault st =
      (.error e, st)) ∨
    ∃ r st', (prog short config n (.applyCode code refereeId)).run exec Proc.noFault st =
      (.ok r, st') ∧ Carried config n st (.applyCode code refereeId) r st' := by
  by_cases happlies : ∃ row, Applies config st code refereeId row
  · obtain ⟨row, hrow⟩ := happlies
    exact Or.inr ⟨_, _, applyCode_applies hidx hrow, .applied code refereeId row hrow⟩
  · -- one of the checks turns the call away
    left
    simp only [prog, applyCode, Proc.bind_eq, Proc.bind_assoc]
    rw [Proc.run_rejectWhen_bind]
    split
    · exact ⟨_, rfl⟩
    · rename_i hactive
      cases huser : st.db.userExists refereeId with
      | false =>
        have hthrows : exec (.findUser refereeId) st =
            .error (.notFound ("User " ++ toString refereeId ++ " not found")) := by
          rw [exec, huser]
          rfl
        exact ⟨_, Proc.run_call_bind_error hthrows⟩
      | true =>
        have hfound : exec (.findUser refereeId) st = .ok ((), st) := by
          rw [exec, huser]
          rfl
        rw [Proc.run_call_bind_ok rfl hfound,
          Proc.run_call_bind_ok rfl (show exec (.findByReferred refereeId) st =
            .ok (st.findByReferred refereeId, st) from rfl), Proc.run_rejectWhen_bind]
        split
        · exact ⟨_, rfl⟩
        · rename_i hnone
          rw [Proc.run_call_bind_ok rfl (show exec (.findByCode code) st =
            .ok (st.findByCode code, st) from rfl)]
          cases hcode : st.findByCode code with
          | none => exact ⟨_, rfl⟩
          | some row =>
            simp only [Proc.bind_assoc]
            rw [Proc.run_call_bind_ok rfl (show exec (.countByReferrer row.referrerId) st =
              .ok (st.countByReferrer row.referrerId, st) from rfl), Proc.run_rejectWhen_bind]
            split
            · exact ⟨_, rfl⟩
            · rename_i hroom
              refine absurd ⟨row, ?_, huser, ?_, hcode, not_le.mp hroom⟩ happlies
              · simpa using hactive
              · simpa using hnone

theorem qualifyReferral_cases (hidx : Indexed n st) (id : ℕ) :
    (∃ e, (prog short config n (.qualifyReferral id)).run exec Proc.noFault st = (.error e, st)) ∨
    ∃ r st', (prog short config n (.qualifyReferral id)).run exec Proc.noFault st =
      (.ok r, st') ∧ Carried config n st (.qualifyReferral id) r st' := by
  simp only [prog, qualifyReferral, Proc.bind_eq, Proc.bind_assoc]
  rw [Proc.run_call_bind_ok rfl (show exec (.findReferral id) st =
    .ok (st.referral id, st) from rfl)]
  cases hfound : st.referral id with
  | none => exact Or.inl ⟨_, rfl⟩
  | some row =>
    simp only [Proc.bind_assoc]
    rw [Proc.run_rejectWhen_bind]
    split
    · exact Or.inl ⟨_, rfl⟩
    · rename_i hpending
      obtain ⟨hmem, hid⟩ := mem_of_referral hfound
      have hunique := hidx.save_loaded (row.qualified st.db.now) hmem rfl rfl (Or.inl rfl)
      have hstores : exec (.save (row.qualified st.db.now)) st =
          .ok ((), st.put (row.qualified st.db.now)) := by
        simp only [exec, save_eq hunique]
      rw [Proc.run_call_bind_ok rfl (show exec .now st = .ok (st.db.now, st) from rfl),
        Proc.run_call_bind_ok rfl hstores]
      exact Or.inr ⟨_, _, rfl, .qualified id row _ hfound (not_not.mp hpending)⟩

theorem rewardReferral_pays (short : UserId → String) (hidx : Indexed n st) {id : ℕ}
    {row : Referral} (h : Pays config st id row) :
    ∃ r st', (prog short config n (.rewardReferral id)).run exec Proc.noFault st =
      (.ok r, st') ∧ Carried config n st (.rewardReferral id) r st' := by
  obtain ⟨hmem, hid⟩ := mem_of_referral h.found
  subst hid
  obtain ⟨balance, db, hadjust⟩ := Db.adjustBalance_accepts n row.id usd_supported
    (show st.db.Covers row.referrerId "USD" config.amount from h.covered)
  have hadjusted := Db.adjustBalance_ok hadjust
  -- the credit is committed; the two saves and the commit find what they need
  let st₁ : ReferralDb := { st with db := db }
  have hunique : st₁.violatesUnique (row.rewarded db.now) = false :=
    hidx.save_loaded (row.rewarded db.now) hmem rfl rfl (Or.inl rfl)
  have hcredit : exec (.adjustBalance n row.id row.referrerId "USD" config.amount) st =
      .ok ((), st₁) := by
    simp only [exec, hadjust]
    rfl
  have hsaves : exec (.managerSaveReferral (row.rewarded db.now)) st₁ = .ok ((), st₁) := by
    simp only [exec, save_eq hunique]
  let reward := (createReward n row.id config.amount db.now).stamp db.now
  have hcommits : exec (.commit reward (row.rewarded db.now)) st₁ =
      .ok ((), { st₁.put (row.rewarded db.now) with rewards := st₁.rewards ++ [reward] }) := by
    simp only [exec, save_eq hunique]
    rfl
  simp only [prog, rewardReferral, Proc.bind_eq, Proc.bind_assoc]
  rw [Proc.run_call_bind_ok rfl (show exec (.findReferral row.id) st =
    .ok (st.referral row.id, st) from rfl), h.found]
  simp only [Proc.bind_assoc]
  rw [Proc.run_rejectWhen_bind, if_neg (not_not.mpr h.qualified),
    Proc.run_call_bind_ok rfl (show exec .startTransaction st = .ok ((), st) from rfl),
    Proc.run_call_bind_ok rfl hcredit,
    Proc.run_call_bind_ok rfl (show exec .now st₁ = .ok (db.now, st₁) from rfl),
    Proc.run_call_bind_ok rfl (show exec (.managerSaveReward
      (createReward n row.id config.amount db.now)) st₁ = .ok (reward, st₁) from rfl),
    Proc.run_call_bind_ok rfl (show exec .now st₁ = .ok (db.now, st₁) from rfl),
    Proc.run_call_bind_ok rfl hsaves, Proc.run_call_bind_ok rfl hcommits]
  exact ⟨_, _, rfl, .rewarded row.id row reward db.now db h hadjusted⟩

theorem rewardReferral_cases (hidx : Indexed n st) (id : ℕ) :
    (∃ e, (prog short config n (.rewardReferral id)).run exec Proc.noFault st = (.error e, st)) ∨
    ∃ r st', (prog short config n (.rewardReferral id)).run exec Proc.noFault st =
      (.ok r, st') ∧ Carried config n st (.rewardReferral id) r st' := by
  by_cases hpays : ∃ row, Pays config st id row
  · obtain ⟨row, hrow⟩ := hpays
    exact Or.inr (rewardReferral_pays short hidx hrow)
  · left
    simp only [prog, rewardReferral, Proc.bind_eq, Proc.bind_assoc]
    rw [Proc.run_call_bind_ok rfl (show exec (.findReferral id) st =
      .ok (st.referral id, st) from rfl)]
    cases hfound : st.referral id with
    | none => exact ⟨_, rfl⟩
    | some row =>
      simp only [Proc.bind_assoc]
      rw [Proc.run_rejectWhen_bind]
      split
      · exact ⟨_, rfl⟩
      · rename_i hqualified
        rw [Proc.run_call_bind_ok rfl (show exec .startTransaction st = .ok ((), st) from rfl)]
        -- the credit is refused
        cases hadjust : st.db.adjustBalance n row.id row.referrerId "USD" config.amount with
        | error e =>
          have hthrows : exec (.adjustBalance n row.id row.referrerId "USD" config.amount) st =
              .error e := by
            simp only [exec, hadjust]
          exact ⟨_, Proc.run_call_bind_error hthrows⟩
        | ok r =>
          have hadjusted := Db.adjustBalance_ok hadjust
          exact absurd ⟨row, hfound, not_not.mp hqualified, hadjusted.covered⟩ hpays

/-- **Inversion.** A call throws and changes nothing, or does what `Carried` says. -/
theorem run_cases (short : UserId → String) (config : ReferralConfig) (hidx : Indexed n st) (k : ReferralCall) :
    (∃ e, (prog short config n k).run exec Proc.noFault st = (.error e, st)) ∨
    ∃ r st', (prog short config n k).run exec Proc.noFault st = (.ok r, st') ∧
      Carried config n st k r st' := by
  cases k with
  | generateCode referrerId => exact generateCode_cases hidx referrerId
  | applyCode code refereeId => exact applyCode_cases hidx code refereeId
  | qualifyReferral id => exact qualifyReferral_cases hidx id
  | rewardReferral id => exact rewardReferral_cases hidx id

end Call

-- ---------------------------------------------------------------------------
-- What a call leaves
-- ---------------------------------------------------------------------------

/-- Every row is still there under its code; a recorded referee and the mark of
a reward have stayed. -/
def Kept (st st' : ReferralDb) : Prop :=
  ∀ id row, st.referral id = some row → ∃ row', st'.referral id = some row' ∧
    row'.referrerId = row.referrerId ∧ row'.referralCode = row.referralCode ∧
    (row.referredId ≠ row.referrerId → row'.referredId = row.referredId) ∧
    (row.status = .rewarded → row'.status = .rewarded)

/-- What a referrer has got in USD since `st`, in hundredths. -/
def Paid (config : ReferralConfig) (st st' : ReferralDb) : Prop :=
  ∀ referrerId, st'.db.cents referrerId "USD" - st.db.cents referrerId "USD" =
    shift (100 * config.amount) * ((st'.rewardedBy referrerId : ℤ) - st.rewardedBy referrerId)

section Step

variable {config : ReferralConfig} {n : ℕ} {st st' st'' : ReferralDb} {k : ReferralCall}
  {r : Returned}

theorem Kept.refl (st : ReferralDb) : Kept st st :=
  fun _ row hrow => ⟨row, hrow, rfl, rfl, fun _ => rfl, fun h => h⟩

theorem Kept.trans (h : Kept st st') (h' : Kept st' st'') : Kept st st'' := by
  intro id row hrow
  obtain ⟨row', hrow', hreferrer, hcode, hreferred, hrewarded⟩ := h id row hrow
  obtain ⟨row'', hrow'', hreferrer', hcode', hreferred', hrewarded'⟩ := h' id row' hrow'
  refine ⟨row'', hrow'', hreferrer'.trans hreferrer, hcode'.trans hcode, fun hne => ?_,
    fun hstatus => hrewarded' (hrewarded hstatus)⟩
  rw [← hreferred hne]
  refine hreferred' ?_
  rw [hreferred hne, hreferrer]
  exact hne

theorem Paid.trans (h : Paid config st st') (h' : Paid config st' st'') :
    Paid config st st'' := by
  intro referrerId
  have hsum : shift (100 * config.amount) *
      ((st''.rewardedBy referrerId : ℤ) - st.rewardedBy referrerId) =
      shift (100 * config.amount) *
        ((st''.rewardedBy referrerId : ℤ) - st'.rewardedBy referrerId) +
      shift (100 * config.amount) *
        ((st'.rewardedBy referrerId : ℤ) - st.rewardedBy referrerId) := by ring
  rw [hsum, ← h referrerId, ← h' referrerId]
  ring

/-- A row written over `row` under its code and referrer. -/
theorem kept_put {row : Referral} (row' : Referral) (hrow : st.referral row.id = some row)
    (hid : row'.id = row.id) (hreferrer : row'.referrerId = row.referrerId)
    (hcode : row'.referralCode = row.referralCode)
    (hreferred : row.referredId ≠ row.referrerId → row'.referredId = row.referredId)
    (hrewarded : row.status = .rewarded → row'.status = .rewarded) :
    Kept st (st.put row') := by
  intro id old hold
  rw [referral_put, hid]
  by_cases hsame : row.id = id
  · subst hsame
    obtain rfl : row = old := Option.some.inj (hrow.symm.trans hold)
    rw [if_pos rfl]
    exact ⟨row', rfl, hreferrer, hcode, hreferred, hrewarded⟩
  · rw [if_neg hsame]
    exact ⟨old, hold, rfl, rfl, fun _ => rfl, fun h => h⟩

/-- How a written row counts. -/
theorem rewardedBy_put {row : Referral} (row' : Referral) (hrow : st.referral row.id = some row)
    (hid : row'.id = row.id) (referrerId : UserId) :
    (st.put row').rewardedBy referrerId +
        (if row.referrerId = referrerId ∧ row.status = .rewarded then 1 else 0) =
      st.rewardedBy referrerId +
        if row'.referrerId = referrerId ∧ row'.status = .rewarded then 1 else 0 := by
  have hcount := Table.countP_put_old (r := row') (x := row) Referral.id
    (fun r => decide (r.referrerId = referrerId ∧ r.status = .rewarded)) (hid ▸ hrow)
  simp only [decide_eq_true_eq] at hcount
  exact hcount

/-- **Step lemma.** -/
theorem Carried.spec (h : Carried config n st k r st') (hidx : Indexed n st)
    (hproper : ∀ code refereeId row, k = .applyCode code refereeId →
      Applies config st code refereeId row →
      row.referredId = row.referrerId ∧ row.status ≠ .rewarded) :
    Kept st st' ∧ Paid config st st' := by
  -- three of the four write no wallet
  have hunpaid : ∀ st₁ : ReferralDb, st₁.db = st.db →
      (∀ referrerId, st₁.rewardedBy referrerId = st.rewardedBy referrerId) →
      Paid config st st₁ := by
    intro st₁ hdb hcount referrerId
    rw [hdb, hcount]
    ring
  cases h with
  | generated row fresh new pending unique =>
    have hnone : st.referral row.id = none := fresh ▸ hidx.fresh
    refine ⟨?_, hunpaid _ rfl fun referrerId => ?_⟩
    · intro id old hold
      rw [referral_put, if_neg]
      · exact ⟨old, hold, rfl, rfl, fun _ => rfl, fun h => h⟩
      · rintro rfl
        rw [hnone] at hold
        cases hold
    · have hcount := Table.countP_put_new (r := row) Referral.id
        (fun r => decide (r.referrerId = referrerId ∧ r.status = .rewarded)) hnone
      simp only [pending, reduceCtorEq, and_false, decide_false, Bool.false_eq_true, if_false,
        add_zero] at hcount
      exact hcount
  | applied code refereeId row applies =>
    obtain ⟨hnew, hunrewarded⟩ := hproper code refereeId row rfl applies
    have hrow := hidx.referral_of_mem (mem_of_findByCode applies.found).1
    refine ⟨?_, hunpaid _ rfl fun referrerId => ?_⟩
    · exact kept_put (row.applied refereeId) hrow rfl rfl rfl (fun hne => absurd hnew hne)
        fun hr => absurd hr hunrewarded
    · have hcount := rewardedBy_put (row.applied refereeId) hrow rfl referrerId
      simpa [hunrewarded, Referral.applied] using hcount
  | qualified id row t found pending =>
    obtain ⟨hmem, rfl⟩ := mem_of_referral found
    refine ⟨?_, hunpaid _ rfl fun referrerId => ?_⟩
    · exact kept_put (row.qualified t) found rfl rfl rfl (fun _ => rfl) fun hr =>
        absurd (hr.symm.trans pending) (by simp)
    · have hcount := rewardedBy_put (row.qualified t) found rfl referrerId
      simpa [pending, Referral.qualified] using hcount
  | rewarded id row reward t db pays adjusted =>
    obtain ⟨hmem, rfl⟩ := mem_of_referral pays.found
    refine ⟨?_, fun referrerId => ?_⟩
    · exact kept_put (row.rewarded t) pays.found rfl rfl rfl (fun _ => rfl) fun _ => rfl
    · -- the referrer gets the amount, and has one REWARDED referral more
      have hcount := rewardedBy_put (row.rewarded t) pays.found rfl referrerId
      have hcents := adjusted.cents referrerId "USD"
      have hmore : (st.settle (row.rewarded t) reward db).rewardedBy referrerId =
          (st.put (row.rewarded t)).rewardedBy referrerId := rfl
      rw [usd_normalized] at hcents
      rw [hmore, show (st.settle (row.rewarded t) reward db).db = db from rfl, hcents]
      by_cases hmine : row.referrerId = referrerId
      · simp only [hmine, pays.qualified, Referral.rewarded, reduceCtorEq, and_false, and_true,
          if_true, if_false, add_zero] at hcount ⊢
        rw [hcount]
        push_cast
        ring
      · simp only [hmine, Referral.rewarded, false_and, if_false, add_zero] at hcount ⊢
        rw [hcount]
        ring

/-- The table stays indexed. -/
theorem Carried.indexed (h : Carried config n st k r st') (hidx : Indexed n st) :
    Indexed (n + 1) st' := by
  have hup : Indexed (n + 1) st := hidx.mono (Nat.le_succ n)
  cases h with
  | generated row fresh new pending unique =>
    exact hup.put _ (by omega) unique
  | applied code refereeId row applies =>
    have hmem := (mem_of_findByCode applies.found).1
    exact hup.put (row.applied refereeId) (hup.below row hmem)
      (hidx.save_loaded _ hmem rfl rfl (Or.inr applies.unreferred))
  | qualified id row t found pending =>
    have hmem := (mem_of_referral found).1
    exact hup.put (row.qualified t) (hup.below row hmem) (hidx.save_loaded _ hmem rfl rfl (Or.inl rfl))
  | rewarded id row reward t db pays adjusted =>
    have hmem := (mem_of_referral pays.found).1
    have hput := hup.put (row.rewarded t) (hup.below row hmem)
      (hidx.save_loaded _ hmem rfl rfl (Or.inl rfl))
    exact ⟨hput.ids, hput.below, hput.referred, hput.codes⟩

end Step

-- ---------------------------------------------------------------------------
-- Sequences of calls
-- ---------------------------------------------------------------------------

section Sequences

variable {short : UserId → String} {config : ReferralConfig} {n : ℕ} {st : ReferralDb}
  {calls : List (Time × ReferralCall)} {e e' : ReferralEntry}

/-- What is known of one call of a sequence. -/
structure Entered (short : UserId → String) (config : ReferralConfig) (e : ReferralEntry) :
    Prop where
  indexed : ∃ m, Indexed m e.before ∧
    (e.result, e.after) = (prog short config m e.call).run exec Proc.noFault e.before
  done : (∃ err, e.result = .error err ∧ e.after = e.before) ∨
    ∃ m r, e.result = .ok r ∧ Carried config m e.before e.call r e.after

theorem Entered.after_indexed (h : Entered short config e) : ∃ m, Indexed m e.after := by
  obtain ⟨m, hidx, hrun⟩ := h.indexed
  rcases run_cases short config hidx e.call with
    ⟨err, herr⟩ | ⟨r, st', hok, hcarried⟩
  · rw [herr] at hrun
    rw [(Prod.mk.inj hrun).2]
    exact ⟨m, hidx⟩
  · rw [hok] at hrun
    rw [(Prod.mk.inj hrun).2]
    exact ⟨m + 1, hcarried.indexed hidx⟩

/-- The first call of a sequence. -/
theorem entered_head (short : UserId → String) (config : ReferralConfig) (hidx : Indexed n st) (t : Time) (k : ReferralCall) :
    Entered short config ⟨k, ((prog short config n k).run exec Proc.noFault (st.atTime t)).1,
      st.atTime t, ((prog short config n k).run exec Proc.noFault (st.atTime t)).2⟩ ∧
    Indexed (n + 1) ((prog short config n k).run exec Proc.noFault (st.atTime t)).2 := by
  have hidx' : Indexed n (st.atTime t) := ⟨hidx.ids, hidx.below, hidx.referred, hidx.codes⟩
  rcases run_cases short config hidx' k with
    ⟨err, herr⟩ | ⟨r, st', hok, hcarried⟩
  · rw [herr]
    exact ⟨⟨⟨n, hidx', herr.symm⟩, Or.inl ⟨err, rfl, rfl⟩⟩, hidx'.mono (Nat.le_succ n)⟩
  · rw [hok]
    exact ⟨⟨⟨n, hidx', hok.symm⟩, Or.inr ⟨n, r, rfl, hcarried⟩⟩, hcarried.indexed hidx'⟩

theorem entered_of_mem (hidx : Indexed n st) (he : e ∈ sequence short config n st calls) :
    Entered short config e := by
  induction calls generalizing n st with
  | nil => cases he
  | cons call calls ih =>
    obtain ⟨t, k⟩ := call
    obtain ⟨hhead, hidx'⟩ := entered_head short config hidx t k
    rw [sequence, List.mem_cons] at he
    rcases he with rfl | he
    · exact hhead
    · exact ih hidx' he

/-- A proper call keeps the rows and pays for what it marks. -/
theorem Entered.keeps (h : Entered short config e) (hproper : e.Proper config) :
    Kept e.before e.after ∧ Paid config e.before e.after := by
  obtain ⟨m, hidx, hrun⟩ := h.indexed
  rcases run_cases short config hidx e.call with
    ⟨err, herr⟩ | ⟨r, st', hok, hcarried⟩
  · rw [herr] at hrun
    rw [(Prod.mk.inj hrun).2]
    exact ⟨Kept.refl _, fun referrerId => by ring⟩
  · rw [hok] at hrun
    rw [(Prod.mk.inj hrun).2]
    exact hcarried.spec hidx fun code refereeId row hk => hproper code refereeId row hk

/-- **Run lemma.** A sequence of proper calls. -/
theorem sequence_keeps (hidx : Indexed n st)
    (hproper : ∀ e ∈ sequence short config n st calls, e.Proper config)
    (he : e ∈ sequence short config n st calls) :
    Kept st e.before ∧ Kept st e.after ∧ Paid config st e.after := by
  induction calls generalizing n st with
  | nil => cases he
  | cons call calls ih =>
    obtain ⟨t, k⟩ := call
    obtain ⟨hhead, hidx'⟩ := entered_head short config hidx t k
    rw [sequence] at he hproper
    -- the clock is set before the call, which shows in no table
    have hclock : Kept st (st.atTime t) := Kept.refl st
    have hfirst := hhead.keeps (hproper _ (List.mem_cons_self ..))
    have hpaid : Paid config st ((prog short config n k).run exec Proc.noFault (st.atTime t)).2 :=
      hfirst.2
    rcases List.mem_cons.mp he with rfl | he
    · exact ⟨hclock, hclock.trans hfirst.1, hpaid⟩
    · have hrest := ih hidx' (fun e he => hproper e (List.mem_cons_of_mem _ he)) he
      exact ⟨(hclock.trans hfirst.1).trans hrest.1, (hclock.trans hfirst.1).trans hrest.2.1,
        hpaid.trans hrest.2.2⟩

/-- What holds of two calls when the rows are kept in between. -/
theorem sequence_pairwise {P : ReferralEntry → ReferralEntry → Prop} (hidx : Indexed n st)
    (hproper : ∀ e ∈ sequence short config n st calls, e.Proper config)
    (hP : ∀ e e', Entered short config e → Entered short config e' → e.Proper config →
      Kept e.after e'.before → Kept e.after e'.after → P e e') :
    (sequence short config n st calls).Pairwise P := by
  induction calls generalizing n st with
  | nil => exact List.Pairwise.nil
  | cons call calls ih =>
    obtain ⟨t, k⟩ := call
    obtain ⟨hhead, hidx'⟩ := entered_head short config hidx t k
    rw [sequence] at hproper ⊢
    have hrest := fun e he => hproper e (List.mem_cons_of_mem _ he)
    refine List.Pairwise.cons (fun e' he' => ?_) (ih hidx' hrest)
    have hkept := sequence_keeps hidx' hrest he'
    exact hP _ e' hhead (entered_of_mem hidx' he') (hproper _ (List.mem_cons_self ..))
      hkept.1 hkept.2.1

-- ---------------------------------------------------------------------------
-- What the four kinds of call leave behind
-- ---------------------------------------------------------------------------

/-- The row that an `applyCode` records is stored. -/
theorem Entered.applied (h : Entered short config e) {code : String} {refereeId : UserId}
    {row : Referral} (happlied : e.Applied code refereeId row) :
    ∃ old, Applies config e.before code refereeId old ∧ row = old.applied refereeId ∧
      e.after.referrals = Table.put Referral.id row e.before.referrals := by
  obtain ⟨hcall, reward, hresult⟩ := happlied
  rcases h.done with ⟨err, herr, -⟩ | ⟨m, r, hok, hcarried⟩
  · rw [herr] at hresult
    cases hresult
  · rw [hok] at hresult
    cases hresult
    rw [hcall] at hcarried
    generalize hafter : e.after = st' at hcarried
    cases hcarried with
    | applied _ _ old applies => exact ⟨old, applies, rfl, rfl⟩

/-- The row that a `rewardReferral` marks was QUALIFIED and is stored. -/
theorem Entered.rewarded (h : Entered short config e) {id : ℕ} (hrewarded : e.Rewarded id) :
    ∃ row, e.before.referral id = some row ∧ row.status = .qualified ∧
      ∃ row', e.after.referral id = some row' ∧ row'.status = .rewarded := by
  obtain ⟨hcall, r, hresult⟩ := hrewarded
  rcases h.done with ⟨err, herr, -⟩ | ⟨m, r', hok, hcarried⟩
  · rw [herr] at hresult
    cases hresult
  · rw [hcall] at hcarried
    generalize hafter : e.after = st' at hcarried
    cases hcarried with
    | rewarded _ row reward t db pays adjusted =>
      obtain ⟨hmem, hid⟩ := mem_of_referral pays.found
      refine ⟨row, pays.found, pays.qualified, row.rewarded t, ?_, rfl⟩
      exact (referral_put e.before (row.rewarded t) id).trans (if_pos hid)

/-- A referee that is not the referrer was there before the call, or is the one
that the call recorded. -/
theorem Entered.recorded (h : Entered short config e) {row : Referral}
    (hrow : row ∈ e.after.referrals) (hreferred : row.referredId ≠ row.referrerId) :
    (∃ old ∈ e.before.referrals, old.referralCode = row.referralCode ∧
      old.referredId = row.referredId ∧ old.referredId ≠ old.referrerId) ∨
    e.Applied row.referralCode row.referredId row := by
  rcases h.done with ⟨err, -, hsame⟩ | ⟨m, r, hok, hcarried⟩
  · rw [hsame] at hrow
    exact Or.inl ⟨row, hrow, rfl, rfl, hreferred⟩
  · generalize hafter : e.after = st' at hcarried hrow
    generalize hcall : e.call = k at hcarried
    cases hcarried with
    | generated new fresh unapplied pending unique =>
      rcases Table.mem_put _ hrow with rfl | hold
      · exact absurd unapplied hreferred
      · exact Or.inl ⟨row, hold, rfl, rfl, hreferred⟩
    | applied code refereeId old applies =>
      rcases Table.mem_put _ hrow with rfl | hold
      · refine Or.inr ⟨?_, none, hok⟩
        rw [hcall]
        exact congrArg (ReferralCall.applyCode · refereeId) (mem_of_findByCode applies.found).2.symm
      · exact Or.inl ⟨row, hold, rfl, rfl, hreferred⟩
    | qualified id old t found pending =>
      rcases Table.mem_put _ hrow with rfl | hold
      · exact Or.inl ⟨old, (mem_of_referral found).1, rfl, rfl, hreferred⟩
      · exact Or.inl ⟨row, hold, rfl, rfl, hreferred⟩
    | rewarded id old reward t db pays adjusted =>
      rcases Table.mem_put _ hrow with rfl | hold
      · exact Or.inl ⟨old, (mem_of_referral pays.found).1, rfl, rfl, hreferred⟩
      · exact Or.inl ⟨row, hold, rfl, rfl, hreferred⟩

/-- A referee that is not the referrer was there at the start, or was recorded
by one of the calls. -/
theorem recorded_by {earlier later : List ReferralEntry} (hidx : Indexed n st)
    (hsplit : sequence short config n st calls = earlier ++ e :: later) {row : Referral}
    (hrow : row ∈ e.before.referrals) (hreferred : row.referredId ≠ row.referrerId) :
    (∃ old ∈ st.referrals, old.referralCode = row.referralCode ∧
      old.referredId = row.referredId ∧ old.referredId ≠ old.referrerId) ∨
    ∃ e₀ ∈ earlier, ∃ row₀, e₀.Applied row.referralCode row.referredId row₀ := by
  induction calls generalizing n st earlier with
  | nil => simp [sequence] at hsplit
  | cons call calls ih =>
    obtain ⟨t, k⟩ := call
    obtain ⟨hhead, hidx'⟩ := entered_head short config hidx t k
    rw [sequence] at hsplit
    cases earlier with
    | nil =>
      obtain ⟨rfl, -⟩ := List.cons.inj hsplit
      exact Or.inl ⟨row, hrow, rfl, rfl, hreferred⟩
    | cons e₀ earlier =>
      obtain ⟨rfl, hrest⟩ := List.cons.inj hsplit
      rcases ih hidx' hrest with ⟨old, hold, hcode, hsame, hne⟩ | ⟨e₁, he₁, row₁, happlied⟩
      · -- it was there after the first call
        rcases hhead.recorded hold hne with ⟨older, holder, hcode', hsame', hne'⟩ | happlied
        · exact Or.inl ⟨older, holder, hcode'.trans hcode, hsame'.trans hsame, hne'⟩
        · rw [hcode, hsame] at happlied
          exact Or.inr ⟨_, List.mem_cons_self .., old, happlied⟩
      · exact Or.inr ⟨e₁, List.mem_cons_of_mem _ he₁, row₁, happlied⟩

/-- What is stored before a call was stored at the start or after an earlier one. -/
theorem stored_before {earlier later : List ReferralEntry}
    (hsplit : sequence short config n st calls = earlier ++ e :: later) :
    e.before.referrals = st.referrals ∨
      ∃ e₀ ∈ earlier, e.before.referrals = e₀.after.referrals := by
  induction calls generalizing n st earlier with
  | nil => simp [sequence] at hsplit
  | cons call calls ih =>
    obtain ⟨t, k⟩ := call
    rw [sequence] at hsplit
    cases earlier with
    | nil =>
      obtain ⟨rfl, -⟩ := List.cons.inj hsplit
      exact Or.inl rfl
    | cons e₀ earlier =>
      obtain ⟨rfl, hrest⟩ := List.cons.inj hsplit
      rcases ih hrest with hsame | ⟨e₁, he₁, hsame⟩
      · exact Or.inr ⟨_, List.mem_cons_self .., hsame⟩
      · exact Or.inr ⟨e₁, List.mem_cons_of_mem _ he₁, hsame⟩

/-- An `applyCode` that is not turned away records its referee. -/
theorem Entered.applies (h : Entered short config e) {code : String} {refereeId : UserId}
    {row : Referral} (hcall : e.call = .applyCode code refereeId)
    (happlies : Applies config e.before code refereeId row) :
    e.Applied code refereeId (row.applied refereeId) ∧
      e.after = e.before.put (row.applied refereeId) := by
  obtain ⟨m, hidx, hrun⟩ := h.indexed
  rw [hcall, applyCode_applies hidx happlies] at hrun
  obtain ⟨hresult, hafter⟩ := Prod.mk.inj hrun
  exact ⟨⟨hcall, none, hresult⟩, hafter⟩

/-- A `rewardReferral` that is not turned away rewards. -/
theorem Entered.pays (h : Entered short config e) {id : ℕ} {row : Referral}
    (hcall : e.call = .rewardReferral id) (hpays : Pays config e.before id row) :
    e.Rewarded id := by
  obtain ⟨m, hidx, hrun⟩ := h.indexed
  obtain ⟨r, st', hok, -⟩ := rewardReferral_pays short hidx hpays
  rw [hcall, hok] at hrun
  exact ⟨hcall, r, (Prod.mk.inj hrun).1⟩

/-- A REWARDED row was so before the call, or the call paid. -/
theorem Entered.marked (h : Entered short config e) {row : Referral}
    (hrow : row ∈ e.after.referrals) (hstatus : row.status = .rewarded) :
    (∃ old ∈ e.before.referrals, old.status = .rewarded) ∨
    ∃ id old, e.call = .rewardReferral id ∧ Pays config e.before id old := by
  rcases h.done with ⟨err, -, hsame⟩ | ⟨m, r, hok, hcarried⟩
  · rw [hsame] at hrow
    exact Or.inl ⟨row, hrow, hstatus⟩
  · generalize hafter : e.after = st' at hcarried hrow
    generalize hcall : e.call = k at hcarried
    cases hcarried with
    | generated new fresh unapplied pending unique =>
      rcases Table.mem_put _ hrow with rfl | hold
      · rw [pending] at hstatus
        cases hstatus
      · exact Or.inl ⟨row, hold, hstatus⟩
    | applied code refereeId old applies =>
      rcases Table.mem_put _ hrow with rfl | hold
      · cases hstatus
      · exact Or.inl ⟨row, hold, hstatus⟩
    | qualified id old t found pending =>
      rcases Table.mem_put _ hrow with rfl | hold
      · cases hstatus
      · exact Or.inl ⟨row, hold, hstatus⟩
    | rewarded id old reward t db pays adjusted => exact Or.inr ⟨id, old, rfl, pays⟩

/-- A REWARDED row was so at the start, or one of the calls paid. -/
theorem marked_by (hidx : Indexed n st) (he : e ∈ sequence short config n st calls)
    {row : Referral} (hrow : row ∈ e.after.referrals) (hstatus : row.status = .rewarded) :
    (∃ old ∈ st.referrals, old.status = .rewarded) ∨
    ∃ e₀ ∈ sequence short config n st calls, ∃ id old, e₀.call = .rewardReferral id ∧
      Pays config e₀.before id old := by
  induction calls generalizing n st row with
  | nil => cases he
  | cons call calls ih =>
    obtain ⟨t, k⟩ := call
    obtain ⟨hhead, hidx'⟩ := entered_head short config hidx t k
    rw [sequence] at he ⊢
    -- a REWARDED row after the first call
    have hfirst : ∀ {row : Referral}, row ∈ ((prog short config n k).run exec Proc.noFault
        (st.atTime t)).2.referrals → row.status = .rewarded →
        (∃ old ∈ st.referrals, old.status = .rewarded) ∨ ∃ id old, k = .rewardReferral id ∧
          Pays config (st.atTime t) id old := fun hrow hstatus => hhead.marked hrow hstatus
    rcases List.mem_cons.mp he with rfl | he
    · exact (hfirst hrow hstatus).imp id fun ⟨id, old, hpays⟩ =>
        ⟨_, List.mem_cons_self .., id, old, hpays⟩
    · rcases ih hidx' he hrow hstatus with ⟨old, hold, hstatus'⟩ | ⟨e₀, he₀, hpays⟩
      · exact (hfirst hold hstatus').imp id fun ⟨id, old, hpays⟩ =>
          ⟨_, List.mem_cons_self .., id, old, hpays⟩
      · exact Or.inr ⟨e₀, List.mem_cons_of_mem _ he₀, hpays⟩

-- ---------------------------------------------------------------------------
-- When the ledger is in order
-- ---------------------------------------------------------------------------

theorem indexed_start (db : Db) : Indexed 0 (start db) := by
  refine ⟨List.nodup_nil, fun r hr => ?_, fun r hr => ?_, fun r hr => ?_⟩
  · cases hr
  · cases hr
  · cases hr

/-- The referrer of a code cannot apply it while it has no referee. -/
theorem not_self_applied {code : String} {refereeId : UserId} {row : Referral}
    (happlies : Applies config st code refereeId row) (hnew : row.referredId = row.referrerId) :
    refereeId ≠ row.referrerId := by
  rintro rfl
  have hmem := (mem_of_findByCode happlies.found).1
  exact (Table.get_eq_none _).mp happlies.unreferred row hmem hnew

variable {db : Db}

theorem integrity_of_proper
    (hproper : ∀ e ∈ sequence short config 0 (start db) calls, e.Proper config)
    (hwhole : ∀ e ∈ sequence short config 0 (start db) calls, e.Whole config) :
    LedgerIntegrity config (start db) (sequence short config 0 (start db) calls) := by
  have hidx := indexed_start db
  refine ⟨sequence_pairwise hidx hproper ?_, sequence_pairwise hidx hproper ?_,
    sequence_pairwise hidx hproper ?_, ?_, ?_⟩
  · -- a row that is REWARDED is not QUALIFIED later
    rintro e e' he he' - hkept - id ⟨hfirst, hsecond⟩
    obtain ⟨-, -, -, row, hrow, hstatus⟩ := he.rewarded hfirst
    obtain ⟨row', hrow', hqualified, -⟩ := he'.rewarded hsecond
    obtain ⟨row'', hrow'', -, -, -, hstays⟩ := hkept id row hrow
    obtain rfl : row' = row'' := Option.some.inj (hrow'.symm.trans hrow'')
    rw [hstays hstatus] at hqualified
    cases hqualified
  · intro e e' he he' hprop _ hkept code refereeId row happlied
    obtain ⟨old, happlies, rfl, hafter⟩ := he.applied happlied
    obtain ⟨hnew, -⟩ := hprop code refereeId old happlied.1 happlies
    have hstored : e.after.referral old.id = some (old.applied refereeId) := by
      rw [ReferralDb.referral, hafter]
      exact Table.get_put_self Referral.id (old.applied refereeId) e.before.referrals
    -- the row is kept with its referee, and is the row of its code
    obtain ⟨row', hrow', hreferrer, hcode, hreferred, -⟩ := hkept old.id _ hstored
    obtain ⟨m, hidx'⟩ := he'.after_indexed
    have hself := not_self_applied happlies hnew
    refine ⟨row', ?_, hreferred hself⟩
    have hfound := hidx'.findByCode_of_mem _ (mem_of_referral hrow').1
    rw [hcode] at hfound
    rw [← (mem_of_findByCode happlies.found).2]
    exact hfound
  · intro e e' _ _ _ _ hkept id row hrow hstatus
    obtain ⟨row', hrow', -, -, -, hstays⟩ := hkept id row hrow
    exact ⟨row', hrow', hstays hstatus⟩
  · intro e he code refereeId row happlied
    obtain ⟨old, happlies, rfl, -⟩ := (entered_of_mem hidx he).applied happlied
    have hself := not_self_applied happlies
      (hproper e he code refereeId old happlied.1 happlies).1
    exact hself
  · intro e he referrerId
    have hpaid := (sequence_keeps hidx hproper he).2.2 referrerId
    rw [show (start db).rewardedBy referrerId = 0 from rfl, Nat.cast_zero, sub_zero] at hpaid
    rw [← Int.cast_sub, hpaid, Int.cast_mul, Int.cast_natCast]
    rcases Nat.eq_zero_or_pos (e.after.rewardedBy referrerId) with hzero | hpos
    · rw [hzero, Nat.cast_zero, mul_zero, mul_zero]
    · -- some call has paid, so the amount is whole
      obtain ⟨row, hrow, hmine⟩ := List.countP_pos_iff.mp hpos
      rw [decide_eq_true_eq] at hmine
      rcases marked_by hidx he hrow hmine.2 with ⟨old, hold, -⟩ | ⟨e₀, he₀, id, old, hcall, hpays⟩
      · cases hold
      · obtain ⟨cents, hcents⟩ := hwhole e₀ he₀ id old hcall hpays
        rw [hcents, shift_intCast]

theorem proper_of_integrity
    (h : LedgerIntegrity config (start db) (sequence short config 0 (start db) calls)) :
    ∀ e ∈ sequence short config 0 (start db) calls, e.Proper config := by
  intro e he code refereeId row hcall happlies
  have hidx := indexed_start db
  have hentered := entered_of_mem hidx he
  obtain ⟨happlied, hafter⟩ := hentered.applies hcall happlies
  obtain ⟨hmem, hcode⟩ := mem_of_findByCode happlies.found
  obtain ⟨earlier, later, hsplit⟩ := List.append_of_mem he
  -- what the properties say of an earlier call and this one
  have hpair : ∀ {P : ReferralEntry → ReferralEntry → Prop},
      (sequence short config 0 (start db) calls).Pairwise P → ∀ e₀ ∈ earlier, P e₀ e := by
    intro P hP e₀ he₀
    rw [hsplit] at hP
    exact (List.pairwise_append.mp hP).2.2 e₀ he₀ e (List.mem_cons_self ..)
  constructor
  · by_contra hreferred
    rcases recorded_by hidx hsplit hmem hreferred with ⟨old, hold, -⟩ | ⟨e₀, he₀, row₀, hrecorded⟩
    · cases hold
    · obtain ⟨row', hrow', hkept⟩ := hpair h.refereeKept e₀ he₀ _ _ _ hrecorded
      -- the code now has another referee
      have hnow : e.after.findByCode row.referralCode = some (row.applied refereeId) := by
        obtain ⟨m, hidx'⟩ := hentered.after_indexed
        refine hidx'.findByCode_of_mem (row.applied refereeId) ?_
        rw [hafter]
        exact Table.mem_put_self ..
      rw [hnow] at hrow'
      cases hrow'
      exact (Table.get_eq_none _).mp happlies.unreferred row hmem hkept.symm
  · intro hstatus
    have hgone : ∀ row', e.after.referral row.id = some row' → row'.status ≠ .rewarded := by
      intro row' hrow'
      rw [hafter, referral_put] at hrow'
      cases hrow'.symm.trans (if_pos rfl)
      simp [Referral.applied]
    obtain ⟨m, hidx', -⟩ := hentered.indexed
    rcases stored_before hsplit with hsame | ⟨e₀, he₀, hsame⟩
    · rw [hsame] at hmem
      cases hmem
    · have hrow := hidx'.referral_of_mem hmem
      rw [ReferralDb.referral, hsame] at hrow
      obtain ⟨row', hrow', hstays⟩ := hpair h.rewardedFinal e₀ he₀ row.id row hrow hstatus
      exact hgone row' hrow' hstays

theorem whole_of_integrity
    (h : LedgerIntegrity config (start db) (sequence short config 0 (start db) calls)) :
    ∀ e ∈ sequence short config 0 (start db) calls, e.Whole config := by
  intro e he id row hcall hpays
  have hidx := indexed_start db
  have hentered := entered_of_mem hidx he
  obtain ⟨-, -, -, row', hrow', hstatus⟩ := hentered.rewarded (hentered.pays hcall hpays)
  -- the referrer has a REWARDED referral, paid to the cent
  have hpos : 0 < e.after.rewardedBy row'.referrerId :=
    List.countP_pos_iff.mpr ⟨row', (mem_of_referral hrow').1, by simp [hstatus]⟩
  have hpaid := (sequence_keeps hidx (proper_of_integrity h) he).2.2 row'.referrerId
  have hcredited := h.credited e he row'.referrerId
  rw [show (start db).rewardedBy row'.referrerId = 0 from rfl, Nat.cast_zero, sub_zero] at hpaid
  rw [← Int.cast_sub, hpaid, Int.cast_mul, Int.cast_natCast] at hcredited
  refine ⟨shift (100 * config.amount), ?_⟩
  have hne : (e.after.rewardedBy row'.referrerId : ℚ) ≠ 0 := by
    exact_mod_cast hpos.ne'
  exact (mul_right_cancel₀ hne hcredited).symm

/-- **When the referral ledger is in order.** -/
theorem ledger_integrity_iff (short : UserId → String) (config : ReferralConfig) (db : Db)
    (calls : List (Time × ReferralCall)) :
    LedgerIntegrity config (start db) (sequence short config 0 (start db) calls) ↔
      ∀ e ∈ sequence short config 0 (start db) calls, e.Proper config ∧ e.Whole config := by
  constructor
  · intro h e he
    exact ⟨proper_of_integrity h e he, whole_of_integrity h e he⟩
  · intro h
    exact integrity_of_proper (fun e he => (h e he).1) fun e he => (h e he).2

end Sequences

-- ---------------------------------------------------------------------------
-- One code, two referees
-- ---------------------------------------------------------------------------

/-- The program runs with the default limit and reward. -/
def defaults : ReferralConfig := ⟨true, none, none⟩

/-- The head of every key. -/
def head (_ : UserId) : String := "3F2504E0"

def codeOfAda : String := referralCode head 1 1000

/-- User 1 gives the same code to users 2 and 3. -/
def appliedTwice : List (Time × ReferralCall) :=
  [(1000, .generateCode 1), (2000, .applyCode codeOfAda 2), (3000, .qualifyReferral 0),
    (4000, .rewardReferral 0), (5000, .applyCode codeOfAda 3), (6000, .qualifyReferral 0),
    (7000, .rewardReferral 0)]

def appliedTwiceRun : List ReferralEntry :=
  sequence head defaults 0 (start (.deployed [])) appliedTwice

/-- No call throws, and user 1 has 20 USD for the one REWARDED referral. -/
theorem referee_replaced :
    appliedTwiceRun.map (fun e => e.result.isOk) = [true, true, true, true, true, true, true] ∧
      (appliedTwiceRun.getLast?.map fun e => (e.after.db.cents 1 "USD", e.after.rewardedBy 1)) =
        some (2000, 1) ∧
      ¬ LedgerIntegrity defaults (start (.deployed [])) appliedTwiceRun := by
  refine ⟨by decide +kernel, by decide +kernel, fun h => ?_⟩
  have hlast : (appliedTwiceRun.getLast?.map fun e =>
      (e.after.db.cents 1 "USD", e.after.rewardedBy 1)) = some (2000, 1) := by decide +kernel
  obtain ⟨e, he, hobserved⟩ := Option.map_eq_some_iff.mp hlast
  obtain ⟨hcents, hcount⟩ := Prod.mk.inj hobserved
  have hcredited := h.credited e (List.mem_of_getLast? he) 1
  rw [hcents, hcount] at hcredited
  -- 2000 hundredths against 1000
  have hamount : defaults.amount = 10 := rfl
  have hbefore : (start (.deployed [])).db.cents 1 "USD" = 0 := by decide +kernel
  rw [hamount, hbefore] at hcredited
  norm_num at hcredited

end Referrals

end NexaFx
