import NexaFx.Lib.CheckThenAct
import NexaFx.Model.AccountClosure

/-!
# NexaFx — a closed account is empty

`closeAccount` compares each loaded balance with the number zero, and what is
loaded is a string: any wallet at all counts as funds. So the closure goes through
if and only if there is no wallet, which is what was meant exactly when there is
none, or one holds something (`closure_correct`, first part).

The check and the closing write are apart, and no other operation looks at the
closed account. What was checked still holds at the write, and from then on, when
no credit of the account gets in between or comes later (`closure_correct`, last
part).
-/

namespace NexaFx

open Async

namespace AccountClosure

-- ---------------------------------------------------------------------------
-- The property
-- ---------------------------------------------------------------------------

namespace ClosureDb

/-- Every wallet of the account holds zero. -/
def Empty (st : ClosureDb) (a : UserId) : Prop := ∀ w ∈ st.walletsOf a, w.balance = 0

instance (st : ClosureDb) (a : UserId) : Decidable (st.Empty a) :=
  inferInstanceAs (Decidable (∀ w ∈ st.walletsOf a, w.balance = 0))

/-- The account is stored as closed. -/
def Closed (st : ClosureDb) (a : UserId) : Prop :=
  ∃ account, st.account a = some account ∧ account.isActive = false

end ClosureDb

/-- The account is active, and the token, the password and the code are right. -/
structure Valid (svc : Service) (st : ClosureDb) (account : UserAccount)
    (accessToken currentPassword twoFactorCode : String) : Prop where
  given : ¬ (currentPassword = "" ∨ twoFactorCode = "")
  token : svc.subject accessToken st.db.now = some account.id
  stored : st.account account.id = some account
  active : account.isActive = true
  password : svc.hashPassword currentPassword account.passwordSalt = account.passwordHash
  code : svc.isTwoFactorCodeValid account.twoFactorSecret twoFactorCode st.db.now = true

/-- `closeAccount` alone, and nothing fails. -/
def Service.close (svc : Service) (st : ClosureDb) (accessToken currentPassword twoFactorCode : String) :
    Except Err AccountClosureResult × ClosureDb :=
  (svc.closeAccount accessToken currentPassword twoFactorCode).run (exec svc) (fun _ => none) st

-- ---------------------------------------------------------------------------
-- One closure
-- ---------------------------------------------------------------------------

/-- A string is no number. -/
theorem hasFunds_eq (st : ClosureDb) (a : UserId) :
    hasFunds (st.getBalancesForAccount a) = !(st.walletsOf a).isEmpty := by
  unfold ClosureDb.getBalancesForAccount hasFunds
  cases st.walletsOf a with
  | nil => rfl
  | cons w ws =>
    have hne : (WalletBalance.of w).balance.strictNe (.number 0) = true :=
      decide_eq_true (by simp [WalletBalance.of])
    rw [List.map_cons, List.any_cons, hne]
    rfl

theorem run_closeChecked (svc : Service) (account : UserAccount) (st : ClosureDb) :
    ∃ r st', (svc.closeChecked account).run (exec svc) (fun _ => none) st = (.ok r, st') :=
  ⟨_, _, rfl⟩

section One

variable {svc : Service} {st : ClosureDb} {account : UserAccount}
  {accessToken currentPassword twoFactorCode : String}

theorem run_verifyAccessToken_ok {sub : UserId} (h : svc.subject accessToken st.db.now = some sub) :
    (verifyAccessToken accessToken).run (exec svc) (fun _ => none) st = (.ok sub, st) := by
  have hexec : exec svc (.verifyAsync accessToken) st = .ok (sub, st) := by rw [exec, h]
  unfold verifyAccessToken
  simp only [Proc.bind_eq]
  rw [Proc.run_attempt_bind, Proc.run_call, outcome_none, hexec]
  rfl

theorem run_verifyAccessToken_error (h : svc.subject accessToken st.db.now = none) :
    (verifyAccessToken accessToken).run (exec svc) (fun _ => none) st =
      (.error (.unauthorized "Invalid access token"), st) := by
  have hexec : exec svc (.verifyAsync accessToken) st = .error (.unauthorized "invalid token") := by
    rw [exec, h]
  unfold verifyAccessToken
  simp only [Proc.bind_eq]
  rw [Proc.run_attempt_bind, Proc.run_call, outcome_none, hexec]
  rfl

theorem run_assertZeroBalance (svc : Service) (st : ClosureDb) (a : UserId) :
    (assertZeroBalance a).run (exec svc) (fun _ => none) st =
      if hasFunds (st.getBalancesForAccount a) = true
        then (.error (.unprocessable "Account balance must be zero before closure"), st)
        else (.ok (), st) := by
  unfold assertZeroBalance
  simp only [Proc.bind_eq]
  rw [Proc.run_call_bind_ok rfl rfl, Proc.run_rejectWhen]

/-- When all else is right, the wallets decide. -/
theorem close_of_valid (h : Valid svc st account accessToken currentPassword twoFactorCode) :
    if hasFunds (st.getBalancesForAccount account.id) = true
      then svc.close st accessToken currentPassword twoFactorCode =
        (.error (.unprocessable "Account balance must be zero before closure"), st)
      else ∃ r st', svc.close st accessToken currentPassword twoFactorCode = (.ok r, st') := by
  have hfind : exec svc (.findAccount account.id) st = .ok (some account, st) := by
    rw [exec, h.stored]
  have hnow : exec svc (.tx .now) st = .ok (st.db.now, st) := rfl
  have hchecks : svc.close st accessToken currentPassword twoFactorCode =
      ((assertZeroBalance account.id).bind fun _ => svc.closeChecked account).run (exec svc)
        (fun _ => none) st := by
    unfold Service.close Service.closeAccount
    simp only [Proc.bind_eq]
    rw [Proc.run_rejectWhen_bind, if_neg h.given, Proc.run_bind_ok (run_verifyAccessToken_ok h.token),
      Proc.run_call_bind_ok rfl hfind]
    show Proc.run _ _ (Proc.bind _ _) _ = _
    rw [Proc.run_rejectWhen_bind, if_neg (by simp [h.active]), Proc.run_rejectWhen_bind,
      if_neg (not_not.mpr h.password), Proc.run_call_bind_ok rfl hnow, Proc.run_rejectWhen_bind,
      if_neg (by simp [h.code])]
  rw [hchecks, Proc.run_bind, run_assertZeroBalance]
  split
  · rfl
  · exact run_closeChecked svc account st

/-- **Rejected, and nothing has changed.** -/
theorem close_unchanged {e : Err} {st' : ClosureDb}
    (h : svc.close st accessToken currentPassword twoFactorCode = (.error e, st')) : st' = st := by
  unfold Service.close Service.closeAccount at h
  simp only [Proc.bind_eq] at h
  rw [Proc.run_rejectWhen_bind] at h
  split at h
  · cases h
    rfl
  · cases hsub : svc.subject accessToken st.db.now with
    | none =>
      rw [Proc.run_bind_error (run_verifyAccessToken_error hsub)] at h
      cases h
      rfl
    | some sub =>
      rw [Proc.run_bind_ok (run_verifyAccessToken_ok hsub), Proc.run_call_bind_ok rfl rfl] at h
      cases hfound : st.account sub with
      | none =>
        rw [hfound] at h
        cases h
        rfl
      | some account =>
        rw [hfound] at h
        have hnow : exec svc (.tx .now) st = .ok (st.db.now, st) := rfl
        rw [Proc.run_rejectWhen_bind, Proc.run_rejectWhen_bind, Proc.run_call_bind_ok rfl hnow,
          Proc.run_rejectWhen_bind, Proc.run_bind, run_assertZeroBalance] at h
        split at h
        · cases h
          rfl
        split at h
        · cases h
          rfl
        split at h
        · cases h
          rfl
        by_cases hfunds : hasFunds (st.getBalancesForAccount account.id) = true
        · rw [if_pos hfunds] at h
          cases h
          rfl
        · rw [if_neg hfunds] at h
          obtain ⟨r, st'', hrun⟩ := run_closeChecked svc account st
          have hend : (svc.closeChecked account).run (exec svc) (fun _ => none) st = (.error e, st') := h
          rw [hrun] at hend
          cases hend

/-- **Exactly when the check does what it is for.** -/
theorem close_iff (h : Valid svc st account accessToken currentPassword twoFactorCode) :
    ((∃ r st', svc.close st accessToken currentPassword twoFactorCode = (.ok r, st')) ↔
      st.Empty account.id) ↔
    (st.walletsOf account.id = [] ∨ ∃ w ∈ st.walletsOf account.id, w.balance ≠ 0) := by
  have hclose := close_of_valid h
  rw [hasFunds_eq] at hclose
  cases hwallets : st.walletsOf account.id with
  | nil =>
    rw [hwallets] at hclose
    have hempty : st.Empty account.id := fun w hw => by
      rw [hwallets] at hw
      cases hw
    exact iff_of_true (iff_of_true hclose hempty) (Or.inl rfl)
  | cons w ws =>
    rw [hwallets] at hclose
    have hrejected : ¬ ∃ r st', svc.close st accessToken currentPassword twoFactorCode = (.ok r, st') := by
      rintro ⟨r, st', hok⟩
      rw [show svc.close st accessToken currentPassword twoFactorCode = _ from hclose] at hok
      cases hok
    rw [iff_false_left hrejected, ← hwallets]
    constructor
    · intro hnot
      by_contra hnone
      refine hnot fun x hx => ?_
      by_contra hx0
      exact hnone (Or.inr ⟨x, hx, hx0⟩)
    · rintro (hnil | ⟨x, hx, hx0⟩) hempty
      · rw [hwallets] at hnil
        cases hnil
      · exact hx0 (hempty x hx)

end One

-- ---------------------------------------------------------------------------
-- Closures among other calls
-- ---------------------------------------------------------------------------

/-- The command reads the balances of the account. -/
def ClosureCmd.checks (a : UserId) : ClosureCmd → Bool
  | .getBalancesForAccount accountId => decide (accountId = a)
  | _ => false

/-- The command saves the account. -/
def ClosureCmd.saves (a : UserId) : ClosureCmd → Bool
  | .saveAccount account => decide (account.id = a)
  | _ => false

/-- The command adds to a wallet of the account. -/
def ClosureCmd.credits (a : UserId) : ClosureCmd → Bool
  | .tx (.adjustBalance _ _ _ accountId _ delta) => decide (accountId = a ∧ 0 < delta)
  | _ => false

/-- What a statement answers. -/
def Answers : (c : ClosureCmd) → c.Reply → Prop
  | .findAccount id, found => ∀ account, found = some account → account.id = id
  | _, _ => True

/-- The account is not credited once it is closed, nor while a closure that has
read its balances may still save it. -/
def noCredit (a : UserId) : Discipline ClosureCall ClosureCmd ClosureCmd.Reply Err ClosureDb Answer where
  onCall _ _ _ := True
  onStep cfg _ c _ := c.credits a = true → ¬ cfg.state.Closed a ∧
    ∀ j thj, cfg.thread j = some thj →
      thj.proc.Aside (ClosureCmd.saves a) (ClosureCmd.checks a) Answers

section Commands

variable {svc : Service} {a : UserId} {st st' : ClosureDb}

theorem exec_answers {c : ClosureCmd} {r : c.Reply} (h : exec svc c st = .ok (r, st')) : Answers c r := by
  cases c with
  | findAccount id =>
    obtain rfl : st.account id = r := (Prod.mk.inj (Except.ok.inj h)).1
    exact fun account hfound => Table.key_of_get _ hfound
  | _ => trivial

/-- A balance change that is no credit of the account leaves it empty. -/
theorem adjustBalance_empty {db db' : Db} {call : ℕ} {tx : TxId} {accountId : UserId} {currency : String}
    {delta : ℚ} {b : ℤ} (h : db.adjustBalance call tx accountId currency delta = .ok (b, db'))
    (hempty : ∀ w ∈ db.wallets, w.accountId = a → w.balance = 0)
    (hcredit : accountId = a → delta ≤ 0) : ∀ w ∈ db'.wallets, w.accountId = a → w.balance = 0 := by
  have hsupported := (Db.adjustBalance_ok h).supported
  unfold Db.adjustBalance at h
  simp only [hsupported] at h
  split at h
  · cases h
    exact hempty
  · split at h
    · cases h
    · rename_i hnonneg
      cases h
      intro w hw hwa
      rcases Table.mem_put _ hw with rfl | hold
      · have haccount : accountId = a :=
          (Db.getD_create_key db accountId (normalizeCurrencyCode currency)).1.symm.trans hwa
        have hzero : db.cents accountId (normalizeCurrencyCode currency) = 0 := by
          unfold Db.cents
          cases hfound : db.wallet accountId (normalizeCurrencyCode currency) with
          | none => rfl
          | some w => exact hempty w (Table.mem_of_get _ hfound) ((Db.wallet_key hfound).1.trans haccount)
        rw [Db.getD_create_balance, hzero] at hnonneg ⊢
        have hcovers := Decimal.roundHalfAway_nonneg.mp (not_lt.mp hnonneg)
        have hdelta := hcredit haccount
        show Decimal.roundHalfAway _ = 0
        rw [Decimal.roundHalfAway_of_gt hcovers, Int.floor_eq_iff]
        push_cast at hcovers ⊢
        constructor <;> linarith
      · exact hempty w hold hwa

theorem empty_iff : st.Empty a ↔ ∀ w ∈ st.db.wallets, w.accountId = a → w.balance = 0 := by
  unfold ClosureDb.Empty ClosureDb.walletsOf
  simp only [List.mem_filter, decide_eq_true_eq, and_imp]

/-- What is no credit of the account leaves it empty. -/
theorem exec_empty {c : ClosureCmd} {r : c.Reply} (h : exec svc c st = .ok (r, st'))
    (hempty : st.Empty a) (hcredit : c.credits a = false) : st'.Empty a := by
  cases c with
  | verifyAsync token =>
    simp only [exec] at h
    split at h
    · cases h
      exact hempty
    · cases h
  | tx c =>
    simp only [exec] at h
    split at h
    · cases h
    · rename_i x db hexec
      cases h
      rw [empty_iff] at hempty ⊢
      show ∀ w ∈ db.wallets, _
      by_cases hmover : c.mover = none
      · rw [(exec_wallets hexec hmover).1]
        exact hempty
      · cases c with
        | adjustBalance site call tx accountId currency delta =>
          rw [exec_adjustBalance] at hexec
          refine adjustBalance_empty hexec hempty fun haccount => not_lt.mp fun hdelta => ?_
          have hnot : decide (accountId = a ∧ 0 < delta) = false := hcredit
          exact of_decide_eq_false hnot ⟨haccount, hdelta⟩
        | _ => exact absurd rfl hmover
  | _ =>
    cases h
    exact hempty

/-- Only a save of the account closes it. -/
theorem exec_closed {c : ClosureCmd} {r : c.Reply} (h : exec svc c st = .ok (r, st'))
    (hclosed : st'.Closed a) : st.Closed a ∨ c.saves a = true := by
  cases c with
  | verifyAsync token =>
    simp only [exec] at h
    split at h
    · cases h
      exact Or.inl hclosed
    · cases h
  | tx c =>
    simp only [exec] at h
    split at h
    · cases h
    · cases h
      exact Or.inl hclosed
  | saveAccount account =>
    cases h
    obtain ⟨found, hfound, hinactive⟩ := hclosed
    by_cases hid : account.id = a
    · exact Or.inr (decide_eq_true hid)
    · refine Or.inl ⟨found, ?_, hinactive⟩
      rw [← hfound]
      exact (Table.get_put_ne _ hid).symm
  | _ =>
    cases h
    exact Or.inl hclosed

end Commands

-- ---------------------------------------------------------------------------
-- The calls
-- ---------------------------------------------------------------------------

section Programs

variable {svc : Service} {a : UserId} {α : Type}

abbrev Clear (a : UserId) (p : ClosureProc α) : Prop :=
  p.Aside (ClosureCmd.saves a) (ClosureCmd.checks a) Answers

/-- The call closes the account only on balances that were all zero. -/
abbrev Careful (svc : Service) (a : UserId) (p : ClosureProc α) : Prop :=
  p.Always Answers fun c next => Rechecks (exec svc) (ClosureCmd.checks a) (ClosureCmd.saves a)
    Answers (fun st => st.Empty a) c next

theorem rechecks_aside {c : ClosureCmd} {next : Except Err c.Reply → ClosureProc α}
    (h : c.checks a = false) : Rechecks (exec svc) (ClosureCmd.checks a) (ClosureCmd.saves a) Answers
      (fun st => st.Empty a) c next := by
  intro hchecks
  rw [h] at hchecks
  cases hchecks

theorem closeChecked_issues {P : ClosureCmd → Prop} {account : UserAccount} (hnow : P (.tx .now))
    (hsave : ∀ saved : UserAccount, saved.id = account.id → P (.saveAccount saved))
    (hrevoke : ∀ t, P (.revokeTokens account.id t))
    (hmail : ∀ email name, P (.sendFinalConfirmation email name)) :
    (svc.closeChecked account).Issues P := by
  unfold Service.closeChecked sendConfirmation
  refine Proc.issues_bind (Proc.issues_call.mpr hnow) fun now => ?_
  refine Proc.issues_bind (Proc.issues_call.mpr (hsave (svc.closed account now) rfl)) fun _ => ?_
  refine Proc.issues_bind (Proc.issues_call.mpr (hrevoke now)) fun _ => ?_
  refine Proc.issues_bind (Proc.issues_attempt ?_) fun _ => trivial
  refine Proc.issues_bind (Proc.issues_call.mpr (hmail _ _)) fun _ => ?_
  refine Proc.issues_bind (Proc.issues_call.mpr hnow) fun t => ?_
  exact Proc.issues_call.mpr (hsave { svc.closed account now with finalEmailSentAt := some t } rfl)

theorem verifyAccessToken_issues {P : ClosureCmd → Prop} {token : String} (h : P (.verifyAsync token)) :
    (verifyAccessToken token).Issues P := by
  unfold verifyAccessToken
  refine Proc.issues_bind (Proc.issues_attempt (Proc.issues_call.mpr h)) fun r => ?_
  cases r <;> trivial

theorem closeAccount_clear (accessToken currentPassword twoFactorCode : String) :
    Clear a (svc.closeAccount accessToken currentPassword twoFactorCode) := by
  unfold Service.closeAccount
  refine Proc.aside_rejectWhen_bind fun _ => ?_
  refine Proc.aside_bind (Proc.aside_of_issues (verifyAccessToken_issues rfl)) fun sub => ?_
  refine Proc.aside_call_bind rfl fun found _ => ?_
  cases found with
  | none => trivial
  | some account =>
    refine Proc.aside_rejectWhen_bind fun _ => ?_
    refine Proc.aside_rejectWhen_bind fun _ => ?_
    refine Proc.aside_call_bind rfl fun now _ => ?_
    refine Proc.aside_rejectWhen_bind fun _ => ?_
    by_cases ha : account.id = a
    · unfold assertZeroBalance
      simp only [Proc.bind_eq, Proc.bind_assoc]
      exact Proc.aside_open_bind rfl (decide_eq_true ha)
    · refine Proc.aside_bind ?_ fun _ => ?_
      · unfold assertZeroBalance
        refine Proc.aside_call_bind rfl fun balances _ => ?_
        unfold Proc.rejectWhen
        split <;> trivial
      · refine Proc.aside_of_issues (closeChecked_issues rfl (fun saved hid => ?_) (fun _ => rfl)
          fun _ _ => rfl)
        exact decide_eq_false (by rw [hid]; exact ha)

/-- **The check of a closure.** -/
theorem closeAccount_careful (accessToken currentPassword twoFactorCode : String) :
    Careful svc a (svc.closeAccount accessToken currentPassword twoFactorCode) := by
  unfold Service.closeAccount
  simp only [Proc.bind_eq]
  refine Proc.always_rejectWhen_bind fun _ => ?_
  refine Proc.always_bind_of_issues (P := fun c => c.checks a = false)
    (verifyAccessToken_issues rfl) (fun c next hc => rechecks_aside hc) fun sub => ?_
  refine Proc.always_call_bind (rechecks_aside rfl) fun found _ => ?_
  cases found with
  | none => exact .done _
  | some account =>
    refine Proc.always_rejectWhen_bind fun _ => ?_
    refine Proc.always_rejectWhen_bind fun _ => ?_
    refine Proc.always_call_bind (rechecks_aside rfl) fun now _ => ?_
    refine Proc.always_rejectWhen_bind fun _ => ?_
    unfold assertZeroBalance
    simp only [Proc.bind_eq, Proc.bind_assoc]
    refine Proc.always_call_bind (fun hchecks => ⟨fun balances st st' hexec => ?_, fun _ => trivial⟩)
      fun balances _ => ?_
    · obtain rfl : account.id = a := of_decide_eq_true hchecks
      obtain rfl : st.getBalancesForAccount account.id = balances :=
        (Prod.mk.inj (Except.ok.inj hexec)).1
      by_cases hfunds : hasFunds (st.getBalancesForAccount account.id) = true
      · refine Or.inr ?_
        show Clear _ (Proc.bind (Proc.rejectWhen _ _) _)
        rw [Proc.rejectWhen_pos hfunds]
        trivial
      · refine Or.inl fun w hw => ?_
        rw [hasFunds_eq] at hfunds
        have hnil : st.walletsOf account.id = [] := by simpa using hfunds
        rw [hnil] at hw
        cases hw
    · refine Proc.always_rejectWhen_bind fun _ => ?_
      refine Proc.always_of_issues (P := fun c => c.checks a = false)
        (fun c next hc => rechecks_aside hc) ?_
      exact closeChecked_issues rfl (fun _ _ => rfl) (fun _ => rfl) fun _ _ => rfl

/-- The transaction services neither read all balances of an account nor save it. -/
theorem tx_issues (svc : Service) {P : ClosureCmd → Prop} (h : ∀ c, P (.tx c)) (i : ℕ) (k : Call) :
    (prog svc i (.tx k)).Issues P :=
  Proc.issues_embed (fun c (_ : True) => h c) (Proc.issues_true _)

theorem closure_checked (svc : Service) (a : UserId) :
    CheckedActs (server svc) (noCredit a) (ClosureCmd.checks a) (ClosureCmd.saves a) Answers
      (fun st => st.Empty a) (fun st => st.Closed a) where
  fresh i k := by
    cases k with
    | close accessToken currentPassword twoFactorCode =>
      exact Proc.aside_bind (closeAccount_clear _ _ _) fun _ => trivial
    | tx k => exact Proc.aside_of_issues (tx_issues svc (fun _ => rfl) i k)
  checked i k := by
    cases k with
    | close accessToken currentPassword twoFactorCode =>
      exact rechecks_bind_done _ (closeAccount_careful _ _ _)
    | tx k =>
      exact Proc.always_of_issues (P := fun c => c.checks a = false)
        (fun c next hc => rechecks_aside hc) (tx_issues svc (fun _ => rfl) i k)
  reads c st r st' hc h := by
    cases c with
    | getBalancesForAccount accountId => exact (Prod.mk.inj (Except.ok.inj h)).2.symm
    | _ => cases hc
  replied _ _ _ _ h := exec_answers h
  onlyActs _ _ _ _ h hclosed := exec_closed h hclosed
  keeps cfg th c r st' hD h hempty hmatters := by
    refine exec_empty h hempty ?_
    by_contra hcredits
    obtain ⟨hopen, hclear⟩ := hD (Bool.eq_true_of_not_eq_false hcredits)
    rcases hmatters with hclosed | ⟨j, thj, hthj, hnot⟩
    · exact hopen hclosed
    · exact hnot (hclear j thj hthj)

end Programs

/-- **A closed account is empty.** Alone, `closeAccount` does what it is for if and
only if the account has no wallet, or one that holds something; and it leaves
everything as it is when it rejects. Among other calls, without a credit in
between or later, no account is stored as closed that is not empty. -/
theorem closure_correct (svc : Service) :
    (∀ st account accessToken currentPassword twoFactorCode,
      Valid svc st account accessToken currentPassword twoFactorCode →
      (((∃ r st', svc.close st accessToken currentPassword twoFactorCode = (.ok r, st')) ↔
          st.Empty account.id) ↔
        (st.walletsOf account.id = [] ∨ ∃ w ∈ st.walletsOf account.id, w.balance ≠ 0))) ∧
    (∀ st accessToken currentPassword twoFactorCode e st',
      svc.close st accessToken currentPassword twoFactorCode = (.error e, st') → st' = st) ∧
    ∀ a st₀ cfg, (st₀.Closed a → st₀.Empty a) → Reach (server svc) (noCredit a) ⟨st₀, []⟩ cfg →
      cfg.state.Closed a → cfg.state.Empty a :=
  ⟨fun _ _ _ _ _ h => close_iff h, fun _ _ _ _ _ _ h => close_unchanged h,
    fun a _ _ h0 h => (h.checked (closure_checked svc a) rfl h0).1⟩

-- ---------------------------------------------------------------------------
-- Runs
-- ---------------------------------------------------------------------------

def office : Service where
  subject token _ := if token = "token" then some 1 else none
  hashPassword password salt := salt ++ password
  generateTwoFactorCode secret window := if window = 58907520 then secret else ""
  addYears t years := t + years * 31557600000

def ada : UserAccount where
  id := 1
  email := "ada@example.com"
  displayName := "Ada"
  passwordSalt := "salt:"
  passwordHash := "salt:correct horse"
  twoFactorSecret := "123456"
  isActive := true
  deletedAt := none
  closedAt := none
  piiPurgeAt := none
  piiPurgedAt := none
  finalEmailSentAt := none

def holding (wallets : List Wallet) : ClosureDb := ⟨Db.deployed wallets, [ada], [⟨1, none⟩]⟩

theorem ada_valid (wallets : List Wallet) :
    Valid office (holding wallets) ada "token" "correct horse" " 123456 " := by
  refine ⟨by decide, rfl, rfl, rfl, by decide +kernel, ?_⟩
  show office.isTwoFactorCodeValid "123456" " 123456 " 1767225600000 = true
  decide +kernel

def steps (i n : ℕ) : List (Event ClosureCall Err) := List.replicate n (.step i none)

def closing : List (Event ClosureCall Err) :=
  [.call 0 (.close "token" "correct horse" " 123456 ")] ++ steps 0 10

/-- What `noCredit` asks, where nothing is credited. -/
theorem noCredit_of_step {a : UserId} {cfg : ClosureConfig} {th : ClosureThread} {c : ClosureCmd}
    {failed : Bool} (h : (!c.credits a) = true) : (noCredit a).onStep cfg th c failed := by
  intro hcredits
  rw [hcredits] at h
  cases h

/-- An account without a wallet is closed, and stays empty. -/
theorem closure_correct_noWallet :
    (((∃ r st', office.close (holding []) "token" "correct horse" " 123456 " = (.ok r, st')) ↔
        (holding []).Empty 1) ↔
      ((holding []).walletsOf 1 = [] ∨ ∃ w ∈ (holding []).walletsOf 1, w.balance ≠ 0)) ∧
    ∃ cfg, Reach (server office) (noCredit 1) ⟨holding [], []⟩ cfg ∧ cfg.state.Closed 1 ∧
      cfg.state.Empty 1 := by
  have hrun : ((server office).runChecked (fun _ _ c _ => !c.credits 1) ⟨holding [], []⟩ closing).map
      (fun cfg => (cfg.state.account 1).map UserAccount.isActive) = some (some false) := by
    decide +kernel
  obtain ⟨cfg, hcfg, hinactive⟩ := Option.map_eq_some_iff.mp hrun
  have h : Reach (server office) (noCredit 1) ⟨holding [], []⟩ cfg :=
    Reach.refl.of_runChecked (fun _ _ _ _ => trivial) (fun _ _ _ _ => noCredit_of_step) hcfg
  have hclosed : cfg.state.Closed 1 := Option.map_eq_some_iff.mp hinactive
  exact ⟨(closure_correct office).1 _ ada _ _ _ (ada_valid []), cfg, h, hclosed,
    (closure_correct office).2.2 1 _ cfg (fun _ w hw => by cases hw) h hclosed⟩

/-- The balances are read, 25.00 are deposited, and the account is closed. -/
def depositBetween : List (Event ClosureCall Err) :=
  [.call 0 (.close "token" "correct horse" " 123456 ")] ++ steps 0 4 ++
    [.call 1 (.tx (.deposit ⟨1, 25, "USD", "d"⟩))] ++ steps 1 10 ++ steps 0 6

/-- An account with an empty wallet cannot be closed; one that is credited during
the closure is closed with the money. -/
theorem closed_with_funds :
    ((holding [Wallet.create 1 "USD"]).Empty 1 ∧
      (office.close (holding [Wallet.create 1 "USD"]) "token" "correct horse" " 123456 ").1 =
        .error (.unprocessable "Account balance must be zero before closure")) ∧
    ∃ cfg th, Reach (server office) .free ⟨holding [], []⟩ cfg ∧ cfg.thread 0 = some th ∧
      th.proc.returned.isSome = true ∧ cfg.state.Closed 1 ∧
      (cfg.state.walletsOf 1).map Wallet.balance = [2500] := by
  refine ⟨⟨by decide +kernel, ?_⟩, ?_⟩
  · have hclose := close_of_valid (ada_valid [Wallet.create 1 "USD"])
    rw [hasFunds_eq] at hclose
    exact congrArg Prod.fst hclose
  · have hclosed : (((server office).play ⟨holding [], []⟩ depositBetween).state.account 1).map
        UserAccount.isActive = some false := by decide +kernel
    have hreturned : (((server office).play ⟨holding [], []⟩ depositBetween).thread 0).any
        (fun th => th.proc.returned.isSome) = true := by decide +kernel
    obtain ⟨th, hth, hdone⟩ := Option.any_eq_true .. |>.mp hreturned
    exact ⟨_, th, Reach.refl.play depositBetween, hth, hdone, Option.map_eq_some_iff.mp hclosed,
      by decide +kernel⟩

end AccountClosure

end NexaFx
