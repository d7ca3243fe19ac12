import NexaFx.Model.WalletRows

/-!
# NexaFx — the wallet invariant

`adjustBalance`, `getBalance` and `updateCustomization` of
`wallet/wallets.service.ts`, in any number, interleaved at every statement and
with every statement allowed to fail:

* every stored balance is a nonnegative number of hundredths, under a unique
  key and a supported code (`TableValid`);
* `getBalance` returns the stored balance, or 0 where there is no row, and does
  not see how the code was spelled;
* a step of an `adjustBalance` call changes at most the call's own row, and a
  step that changes it is the call's last: it returns. A call that throws has
  changed nothing.

The invariant does not need the calls on one row to be serialised: a stale
write of `updateCustomization` can bring back an old balance, but never one
that was not stored before.
-/

namespace NexaFx

open Async Decimal

namespace WalletRows

-- ---------------------------------------------------------------------------
-- The services
-- ---------------------------------------------------------------------------

/-- A call of the wallets service. -/
inductive ServiceCall where
  | adjustBalance (accountId : UserId) (currency : String) (delta : ℚ)
  | getBalance (accountId : UserId) (currency : String)
  | updateCustomization (accountId : UserId) (currency : String) (label color : Option String)
  deriving DecidableEq

def serviceProg (i : ℕ) : ServiceCall → RowProc WalletBalance
  | .adjustBalance accountId currency delta => adjustBalance i accountId currency delta
  | .getBalance accountId currency => getBalance accountId currency
  | .updateCustomization accountId currency label color =>
    updateCustomization accountId currency label color

/-- The wallets service, its calls interleaved at every statement; every
statement may fail. -/
def services : System ServiceCall RowCmd RowCmd.Reply Err WalletDb WalletBalance where
  prog := serviceProg
  exec := exec
  ready := ready

/-- The table as found, no call made and no row locked. -/
def idle (wallets : List Wallet) :
    Config ServiceCall RowCmd RowCmd.Reply Err WalletDb WalletBalance :=
  ⟨⟨wallets, []⟩, []⟩

-- ---------------------------------------------------------------------------
-- Valid rows
-- ---------------------------------------------------------------------------

/-- A nonnegative number of hundredths of a supported currency. -/
structure Valid (w : Wallet) : Prop where
  balance : 0 ≤ w.balance
  currency : w.currency ∈ SUPPORTED_CURRENCY_CODES

/-- One row a key, every row valid. -/
structure TableValid (wallets : List Wallet) : Prop where
  unique : (wallets.map Wallet.key).Nodup
  rows : ∀ w ∈ wallets, Valid w

theorem TableValid.put {wallets : List Wallet} (h : TableValid wallets) {w : Wallet}
    (hw : Valid w) : TableValid (Table.put Wallet.key w wallets) := by
  refine ⟨Table.nodup_put _ h.unique, ?_⟩
  intro x hx
  rcases Table.mem_put _ hx with rfl | hold
  · exact hw
  · exact h.rows x hold

theorem TableValid.row {db : WalletDb} (h : TableValid db.wallets) {key : WalletKey} {w : Wallet}
    (hw : db.row key = some w) : Valid w :=
  h.rows w (Table.mem_of_get _ hw)

/-- An update writes columns of the entity into the row, so both being valid it
leaves a valid row. -/
theorem Valid.apply_diff {entity stored w : Wallet} (he : Valid entity) (hw : Valid w) :
    Valid ((diff entity stored).apply w) := by
  refine ⟨?_, hw.currency⟩
  show 0 ≤ (changed stored.balance entity.balance).getD w.balance
  unfold changed
  split
  · exact hw.balance
  · exact he.balance

/-- What is written is valid. -/
def ValidCmd : RowCmd → Prop
  | .commitTransaction _ w => Valid w
  | .write entity _ => Valid entity
  | _ => True

/-- What is read is valid and has the key that was asked for. -/
def ValidReply : (c : RowCmd) → c.Reply → Prop
  | .findOneForUpdate _ key, r => ∀ w, r = some w → Valid w ∧ w.key = key
  | .findOne key, r => ∀ w, r = some w → Valid w ∧ w.key = key
  | _, _ => True

/-- The row a statement can change. -/
def RowCmd.target : RowCmd → Option WalletKey
  | .commitTransaction _ w => some w.key
  | .write entity _ => some entity.key
  | _ => none

/-- A statement changes no row but its target. -/
theorem exec_row {c : RowCmd} {s s' : WalletDb} {a : c.Reply} (h : exec c s = .ok (a, s'))
    {key : WalletKey} (hkey : c.target ≠ some key) : s'.row key = s.row key := by
  cases c with
  | findOneForUpdate call k =>
    rw [exec] at h
    split at h <;> cases h <;> rfl
  | stageInsert call w =>
    rw [exec] at h
    split at h
    · cases h
    · cases h
      rfl
  | commitTransaction call w =>
    cases h
    have hne : w.key ≠ key := fun heq => hkey (congrArg some heq)
    rw [WalletDb.row_unlock, WalletDb.row_put, if_neg hne]
  | write entity stored =>
    have hne : entity.key ≠ key := fun heq => hkey (congrArg some heq)
    cases stored with
    | none =>
      rw [exec] at h
      split at h
      · cases h
      · cases h
        rw [WalletDb.row_put, if_neg hne]
    | some stored =>
      rw [exec] at h
      split at h
      · cases h
        rfl
      · rename_i w hw
        cases h
        have hk := WalletDb.key_of_row hw
        rw [WalletDb.row_put, apply_key, hk, if_neg hne]
  | _ =>
    cases h
    rfl

/-- A statement without a target changes no row. -/
theorem exec_wallets_of_target {c : RowCmd} {s s' : WalletDb} {a : c.Reply}
    (h : exec c s = .ok (a, s')) (hc : c.target = none) : s'.wallets = s.wallets := by
  cases c with
  | findOneForUpdate call k =>
    rw [exec] at h
    split at h <;> cases h <;> rfl
  | stageInsert call w =>
    rw [exec] at h
    split at h
    · cases h
    · cases h
      rfl
  | commitTransaction call w => cases hc
  | write entity stored => cases hc
  | _ =>
    cases h
    rfl

/-- **Each statement keeps the table valid**, and reads valid rows of it. -/
theorem exec_valid {c : RowCmd} {s s' : WalletDb} {a : c.Reply} (hc : ValidCmd c)
    (hs : TableValid s.wallets) (h : exec c s = .ok (a, s')) :
    TableValid s'.wallets ∧ ValidReply c a := by
  have hread : ∀ key w, s.row key = some w → Valid w ∧ w.key = key :=
    fun key w hw => ⟨hs.row hw, WalletDb.key_of_row hw⟩
  cases c with
  | findOneForUpdate call key =>
    rw [exec] at h
    split at h
    · cases h
      exact ⟨hs, fun w hw => by cases hw⟩
    · rename_i w hw
      cases h
      refine ⟨hs, ?_⟩
      intro w' hw'
      cases hw'
      exact hread key w hw
  | findOne key =>
    cases h
    exact ⟨hs, hread key⟩
  | commitTransaction call w =>
    cases h
    exact ⟨hs.put hc, trivial⟩
  | write entity stored =>
    refine ⟨?_, trivial⟩
    cases stored with
    | none =>
      rw [exec] at h
      split at h
      · cases h
      · cases h
        exact hs.put hc
    | some stored =>
      rw [exec] at h
      split at h
      · cases h
        exact hs
      · rename_i w hw
        cases h
        exact hs.put (Valid.apply_diff hc (hs.row hw))
  | _ =>
    refine ⟨?_, trivial⟩
    rw [exec_wallets_of_target h rfl]
    exact hs

-- ---------------------------------------------------------------------------
-- The calls, await by await
-- ---------------------------------------------------------------------------

/-- The statement changes at most the row `key`, and the call returns after it. -/
def Settles (key : WalletKey) (c : RowCmd) (next : Except Err c.Reply → RowProc WalletBalance) :
    Prop :=
  ∀ target, c.target = some target → target = key ∧ ∀ a, ∃ b, next (.ok a) = .done (.ok b)

/-- What `getBalance` returns for the row it finds. -/
def balanceOf (accountId : UserId) (currency : String) : Option Wallet → WalletBalance
  | none => ⟨accountId, currency, 0, none, none⟩
  | some wallet => toBalance wallet

/-- The statement looks the row up, and the call returns what it finds. -/
def LooksUp (accountId : UserId) (currency : String) :
    (c : RowCmd) → (Except Err c.Reply → RowProc WalletBalance) → Prop
  | .findOne key, next => key = (accountId, currency) ∧
      ∀ found, next (.ok found) = .done (.ok (balanceOf accountId currency found))
  | _, _ => False

/-- What holds at every statement of a call. -/
def Within : ServiceCall → (c : RowCmd) → (Except Err c.Reply → RowProc WalletBalance) → Prop
  | .adjustBalance accountId currency _, c, next =>
    ValidCmd c ∧ Settles (accountId, normalizeCurrencyCode currency) c next
  | .getBalance accountId currency, c, next =>
    LooksUp accountId (normalizeCurrencyCode currency) c next
  | .updateCustomization .., c, _ => ValidCmd c

theorem settles_of_target {key : WalletKey} {c : RowCmd}
    {next : Except Err c.Reply → RowProc WalletBalance} (h : c.target = none) :
    Settles key c next := by
  intro target htarget
  rw [h] at htarget
  cases htarget

theorem getBalance_within (accountId : UserId) (currency : String) :
    (getBalance accountId currency).Always ValidReply
      (Within (.getBalance accountId currency)) := by
  unfold getBalance
  cases hcur : validateCurrency currency with
  | error e => exact .done _
  | ok cur =>
    obtain rfl := validateCurrency_ok hcur
    simp only [Proc.ofExcept, Proc.bind_eq, Proc.done_ok_bind]
    refine Proc.always_call_bind ⟨rfl, ?_⟩ ?_
    · intro found
      cases found <;> rfl
    · intro found _
      cases found <;> exact .done _

/-- The row that `adjustBalance` writes is valid: a valid row, or a new one of a
supported currency, with a balance that did not come out negative. -/
theorem valid_withBalance (key : WalletKey) {found : Option Wallet} {balance : ℤ}
    (hcur : key.2 ∈ SUPPORTED_CURRENCY_CODES)
    (hfound : ∀ w, found = some w → Valid w ∧ w.key = key) (hbalance : ¬ balance < 0) :
    Valid (withBalance (found.getD (.create key.1 key.2)) balance) ∧
    (withBalance (found.getD (.create key.1 key.2)) balance).key = key := by
  cases found with
  | none => exact ⟨⟨not_lt.mp hbalance, hcur⟩, rfl⟩
  | some w =>
    obtain ⟨hw, hkey⟩ := hfound w rfl
    exact ⟨⟨not_lt.mp hbalance, hw.currency⟩, hkey⟩

/-- The body of the database transaction and its commit or rollback. -/
theorem adjustRow_within (i : ℕ) {accountId : UserId} {currency : String} (delta : ℚ)
    (hsup : normalizeCurrencyCode currency ∈ SUPPORTED_CURRENCY_CODES)
    {handle : Except Err Wallet → RowProc WalletBalance}
    (hok : ∀ w, ∃ b, handle (.ok w) = .done (.ok b))
    (herror : ∀ e, (handle (.error e)).Always ValidReply
      (Within (.adjustBalance accountId currency delta))) :
    (((adjustRow i (accountId, normalizeCurrencyCode currency) delta).bind fun result =>
      (await (.commitTransaction i result)).bind fun _ => Proc.done (.ok result)).attempt.bind
        handle).Always ValidReply (Within (.adjustBalance accountId currency delta)) := by
  have hstage : ∀ (c : RowCmd), c.target = none → ValidCmd c → ∀ next,
      Within (.adjustBalance accountId currency delta) c next :=
    fun c hc hv next => ⟨hv, settles_of_target hc⟩
  unfold adjustRow
  simp only [Proc.bind_eq, Proc.bind_assoc, Proc.pure_eq, Proc.done_ok_bind]
  refine Proc.always_try_call_bind (hstage (.findOneForUpdate i _) rfl trivial _) ?_ herror
  intro found hfound
  by_cases hneg : Db.newBalance
      (found.getD (.create accountId (normalizeCurrencyCode currency))).balance delta < 0
  · rw [Proc.rejectWhen_pos hneg]
    exact herror _
  · rw [Proc.rejectWhen_neg hneg, Proc.done_ok_bind]
    have hwritten := valid_withBalance (accountId, normalizeCurrencyCode currency) hsup hfound hneg
    generalize withBalance (found.getD _) (Db.newBalance _ delta) = w at hwritten ⊢
    -- the commit is the one statement that changes a row, and the last one
    have hcommit : (((await (.commitTransaction i w)).bind fun _ => Proc.done (.ok w)).attempt.bind
        handle).Always ValidReply (Within (.adjustBalance accountId currency delta)) := by
      refine Proc.always_try_call_bind ⟨hwritten.1, ?_⟩ ?_ herror
      · intro target htarget
        cases htarget
        exact ⟨hwritten.2, fun _ => hok w⟩
      · intro _ _
        obtain ⟨b, hb⟩ := hok w
        rw [Proc.attempt_done, Proc.done_ok_bind, hb]
        exact .done _
    cases found with
    | none =>
      exact Proc.always_try_call_bind (hstage (.stageInsert i w) rfl trivial _)
        (fun _ _ => hcommit) herror
    | some _ =>
      exact Proc.always_try_call_bind (hstage (.stageUpdate i w) rfl trivial _)
        (fun _ _ => hcommit) herror

theorem adjustBalance_within (i : ℕ) (accountId : UserId) (currency : String) (delta : ℚ) :
    (adjustBalance i accountId currency delta).Always ValidReply
      (Within (.adjustBalance accountId currency delta)) := by
  unfold adjustBalance
  cases hcur : validateCurrency currency with
  | error e => exact .done _
  | ok cur =>
    have hsup := validateCurrency_supported hcur
    obtain rfl := validateCurrency_ok hcur
    simp only [Proc.ofExcept, Proc.bind_eq, Proc.done_ok_bind]
    split
    · -- `delta = 0` only reads
      have hread := getBalance_within accountId (normalizeCurrencyCode currency)
      refine Proc.Always.mono ?_ hread
      intro c next hlook
      cases c with
      | findOne key => exact ⟨trivial, settles_of_target rfl⟩
      | _ => cases hlook
    · unfold withTransaction
      simp only [Proc.bind_eq, Proc.bind_assoc]
      refine Proc.always_call_bind ⟨trivial, settles_of_target rfl⟩ ?_
      intro _ _
      refine adjustRow_within i delta hsup ?_ ?_
      · intro w
        exact ⟨_, rfl⟩
      · intro e
        simp only [Proc.bind_assoc]
        refine Proc.always_call_bind (c := RowCmd.rollbackTransaction i) ?_ fun _ _ => .done _
        exact ⟨trivial, settles_of_target rfl⟩

theorem valid_customize {w : Wallet} (h : Valid w) (label color : Option String) :
    Valid (customize w label color) := ⟨h.balance, h.currency⟩

theorem updateCustomization_within (accountId : UserId) (currency : String)
    (label color : Option String) :
    (updateCustomization accountId currency label color).Always ValidReply
      (Within (.updateCustomization accountId currency label color)) := by
  unfold updateCustomization
  cases hcur : validateCurrency currency with
  | error e => exact .done _
  | ok cur =>
    simp only [Proc.ofExcept, Proc.bind_eq, Proc.done_ok_bind]
    refine Proc.always_call_bind trivial ?_
    intro found hfound
    cases found with
    | none => exact .done _
    | some w =>
      have hvalid := valid_customize (hfound w rfl).1 label color
      unfold save
      simp only [Proc.bind_eq, Proc.bind_assoc]
      refine Proc.always_call_bind trivial ?_
      intro stored _
      exact Proc.always_call_bind hvalid fun _ _ => .done _

theorem serviceProg_within (i : ℕ) (k : ServiceCall) :
    (serviceProg i k).Always ValidReply (Within k) := by
  cases k with
  | adjustBalance accountId currency delta =>
    exact adjustBalance_within i accountId currency delta
  | getBalance accountId currency => exact getBalance_within accountId currency
  | updateCustomization accountId currency label color =>
    exact updateCustomization_within accountId currency label color

-- ---------------------------------------------------------------------------
-- Every reachable state
-- ---------------------------------------------------------------------------

/-- The table is valid and every call stays within its bounds. -/
theorem services_within {wallets : List Wallet} (h0 : TableValid wallets)
    {cfg : Config ServiceCall RowCmd RowCmd.Reply Err WalletDb WalletBalance}
    (h : Reach services .free (idle wallets) cfg) :
    TableValid cfg.state.wallets ∧
    ∀ i th, cfg.thread i = some th → th.proc.Always ValidReply (Within th.call) := by
  refine h.always (I := fun s => TableValid s.wallets) (Q := fun _ k => Within k) h0 rfl
    serviceProg_within ?_
  intro cfg i th c next a s' _ hwithin hs _ hexec
  refine exec_valid ?_ hs hexec
  cases hcall : th.call with
  | adjustBalance _ _ _ =>
    rw [hcall] at hwithin
    exact hwithin.1
  | getBalance _ _ =>
    rw [hcall] at hwithin
    cases c with
    | findOne key => trivial
    | _ => cases hwithin
  | updateCustomization _ _ _ _ =>
    rw [hcall] at hwithin
    exact hwithin

/-- An `adjustBalance` call alone that throws has changed no row, whichever of
its statements failed. -/
theorem wallets_of_throw {accountId : UserId} {currency : String} {delta : ℚ}
    {p : RowProc WalletBalance}
    (hp : p.Always ValidReply (Within (.adjustBalance accountId currency delta)))
    {φ : RowCmd → Option Err} {s s' : WalletDb} (hs : TableValid s.wallets) {e : Err}
    (h : p.run exec φ s = (.error e, s')) : s'.wallets = s.wallets := by
  induction hp generalizing s with
  | done r =>
    cases h
    rfl
  | @await c next here _ _ ihok iherror =>
    rw [Proc.run_await] at h
    split at h
    · rename_i a s₁ hout
      obtain ⟨hvalid, hsettles⟩ := here
      obtain ⟨hs₁, hreply⟩ := exec_valid hvalid hs (outcome_eq_ok hout).2
      cases htarget : c.target with
      | none => rw [ihok a hreply hs₁ h, exec_wallets_of_target (outcome_eq_ok hout).2 htarget]
      | some target =>
        -- the statement changed the row, so the call has returned
        obtain ⟨b, hb⟩ := (hsettles target htarget).2 a
        rw [hb] at h
        cases h
    · exact iherror _ hs h

/-- What the wallets service promises in a configuration. -/
structure WalletSafety
    (cfg : Config ServiceCall RowCmd RowCmd.Reply Err WalletDb WalletBalance) : Prop where
  /-- Balances are nonnegative hundredths, keys unique, codes supported. -/
  table : TableValid cfg.state.wallets
  /-- `getBalance` returns the stored balance, 0 for a missing row, and changes nothing. -/
  reads : ∀ i accountId currency cfg',
    cfg.called i = some (.getBalance accountId currency) →
    services.step cfg (.step i none) = some cfg' →
    cfg'.state = cfg.state ∧ ∃ b, (cfg'.thread i).map Thread.proc = some (.done (.ok b)) ∧
      b.balance = cfg.state.cents (accountId, normalizeCurrencyCode currency)
  /-- The spelling of a supported code makes no difference to what is called. -/
  spelling : ∀ accountId currency currency',
    normalizeCurrencyCode currency = normalizeCurrencyCode currency' →
    isSupportedCurrency currency = true →
    getBalance accountId currency = getBalance accountId currency'
  /-- A step of `adjustBalance` changes no other row. -/
  frame : ∀ i accountId currency delta fault cfg',
    cfg.called i = some (.adjustBalance accountId currency delta) →
    services.step cfg (.step i fault) = some cfg' →
    ∀ key, key ≠ (accountId, normalizeCurrencyCode currency) →
      cfg'.state.row key = cfg.state.row key
  /-- A step of `adjustBalance` that changes a row is its last, and the call returns. -/
  settles : ∀ i accountId currency delta fault cfg',
    cfg.called i = some (.adjustBalance accountId currency delta) →
    services.step cfg (.step i fault) = some cfg' →
    cfg'.state.wallets ≠ cfg.state.wallets →
    ∃ b, (cfg'.thread i).map Thread.proc = some (.done (.ok b))
  /-- Made here and run alone, `adjustBalance` changes no row if it throws. -/
  throws : ∀ i accountId currency delta φ e s',
    (adjustBalance i accountId currency delta).run exec φ cfg.state = (.error e, s') →
    s'.wallets = cfg.state.wallets

/-- A step of a call answers a statement that is within the bounds of the call. -/
theorem step_within {wallets : List Wallet} (h0 : TableValid wallets)
    {cfg cfg' : Config ServiceCall RowCmd RowCmd.Reply Err WalletDb WalletBalance}
    (h : Reach services .free (idle wallets) cfg) {i : ℕ} {k : ServiceCall} {fault : Option Err}
    (hcalled : cfg.called i = some k) (hstep : services.step cfg (.step i fault) = some cfg') :
    ∃ c next, Within k c next ∧
      cfg'.state = after (outcome fault (exec c cfg.state)) cfg.state ∧
      (cfg'.thread i).map Thread.proc =
        some (next (reply (outcome fault (exec c cfg.state)))) := by
  refine Reach.step_always (S := services) (G := ValidReply) ?_ hcalled hstep
  rintro th hth rfl
  exact (services_within h0 h).2 i th hth

/-- **Wallet safety.** In every configuration that any number of calls of the
wallets service reach from a valid table, in any interleaving of their
statements and with any of these failing. -/
theorem wallet_safety {wallets : List Wallet} (h0 : TableValid wallets)
    {cfg : Config ServiceCall RowCmd RowCmd.Reply Err WalletDb WalletBalance}
    (h : Reach services .free (idle wallets) cfg) : WalletSafety cfg := by
  have htable := (services_within h0 h).1
  constructor
  case table => exact htable
  case reads =>
    intro i accountId currency cfg' hcalled hstep
    obtain ⟨c, next, hwithin, hstate, hthread⟩ := step_within h0 h hcalled hstep
    cases c with
    | findOne key =>
      obtain ⟨rfl, hnext⟩ := hwithin
      refine ⟨hstate, balanceOf accountId (normalizeCurrencyCode currency)
        (cfg.state.row (accountId, normalizeCurrencyCode currency)), ?_, ?_⟩
      · rw [hthread]
        exact congrArg some (hnext _)
      · unfold WalletDb.cents
        cases cfg.state.row (accountId, normalizeCurrencyCode currency) <;> rfl
    | _ => cases hwithin
  case spelling =>
    intro accountId currency currency' heq hsup
    have hsup' : isSupportedCurrency (normalizeCurrencyCode currency') = true := by
      unfold isSupportedCurrency at hsup ⊢
      rwa [normalizeCurrencyCode_idem, ← heq]
    have hval : validateCurrency currency = validateCurrency currency' := by
      unfold validateCurrency
      rw [heq, if_pos hsup', if_pos hsup']
    unfold getBalance
    rw [hval]
  case frame =>
    intro i accountId currency delta fault cfg' hcalled hstep key hkey
    obtain ⟨c, next, ⟨_, hsettles⟩, hstate, _⟩ := step_within h0 h hcalled hstep
    rw [hstate]
    cases hout : outcome fault (exec c cfg.state) with
    | error e => rfl
    | ok r =>
      obtain ⟨a, s'⟩ := r
      refine exec_row (outcome_eq_ok hout).2 ?_
      intro htarget
      exact hkey (hsettles key htarget).1
  case settles =>
    intro i accountId currency delta fault cfg' hcalled hstep hne
    obtain ⟨c, next, ⟨_, hsettles⟩, hstate, hthread⟩ := step_within h0 h hcalled hstep
    cases hout : outcome fault (exec c cfg.state) with
    | error e =>
      rw [hstate, hout] at hne
      exact absurd rfl hne
    | ok r =>
      obtain ⟨a, s'⟩ := r
      cases htarget : c.target with
      | none =>
        rw [hstate, hout] at hne
        exact absurd (exec_wallets_of_target (outcome_eq_ok hout).2 htarget) hne
      | some target =>
        obtain ⟨b, hb⟩ := (hsettles target htarget).2 a
        refine ⟨b, ?_⟩
        rw [hthread, hout]
        exact congrArg some hb
  case throws =>
    intro i accountId currency delta φ e s' hrun
    exact wallets_of_throw (adjustBalance_within i accountId currency delta) htable hrun

theorem tableValid_nil : TableValid [] := ⟨List.nodup_nil, fun _ hw => by cases hw⟩

/-- 5.00 credited under the spelling `" usd"`, then 7.00 debited: the second call
is refused. -/
def creditThenDebit : List (Event ServiceCall Err) :=
  [.call 0 (.adjustBalance 1 " usd" 5), .step 0 none, .step 0 none, .step 0 none, .step 0 none,
    .call 1 (.adjustBalance 1 "USD" (-7)), .step 1 none, .step 1 none, .step 1 none]

theorem wallet_safety_credit_then_debit :
    WalletSafety (services.play (idle []) creditThenDebit) ∧
    (services.play (idle []) creditThenDebit).state.wallets =
      [withBalance (.create 1 "USD") 500] :=
  ⟨wallet_safety tableValid_nil (Reach.play _ .refl), by decide +kernel⟩

end WalletRows

end NexaFx
