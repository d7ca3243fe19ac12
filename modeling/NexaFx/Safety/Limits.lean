import NexaFx.Model.Limits

/-!
# NexaFx — limits bound what was accepted

An accumulator holds the sum of **all** amounts accepted under its key. As long
as none of them is negative, that sum is the volume of the positive ones, and
the comparison before each store keeps it within the limit, in any interleaving
of the checks (`limits_hold`). A negative amount is accepted too, is added like
any other, and makes room for more than the limit (`limits_exceeded`).

That no single amount exceeds its limit, and that a check that throws has left
the accumulators alone, holds in any case.
-/

namespace NexaFx

open Async

namespace Limits

-- ---------------------------------------------------------------------------
-- The property
-- ---------------------------------------------------------------------------

/-- The positive amounts among those that satisfy `p`. -/
def volume (accepted : List Acceptance) (p : Acceptance → Bool) : ℚ :=
  ((accepted.filter fun a => p a && decide (0 < a.amountUsd)).map Acceptance.amountUsd).sum

/-- Accepted for this user under this key, where `key` is the day or the month. -/
def under (key : Acceptance → ℕ) (userId : UserId) (k : ℕ) (a : Acceptance) : Bool :=
  decide (a.userId = userId ∧ key a = k)

structure LimitsHold (settings : Settings) (s : LimitState) : Prop where
  single : ∀ a ∈ s.accepted, a.amountUsd ≤ settings.singleTxLimitUsd
  daily : ∀ userId day,
    volume s.accepted (under Acceptance.day userId day) ≤ settings.dailyLimitUsd
  monthly : ∀ userId month,
    volume s.accepted (under Acceptance.month userId month) ≤ settings.monthlyLimitUsd

-- ---------------------------------------------------------------------------
-- One accumulator
-- ---------------------------------------------------------------------------

/-- The accumulator holds what was accepted under each key, within the limit. -/
structure Accumulates (key : Acceptance → ℕ) (limit : ℚ) (totals : UserId → ℕ → ℚ)
    (accepted : List Acceptance) : Prop where
  sum : ∀ userId k, totals userId k =
    ((accepted.filter (under key userId k)).map Acceptance.amountUsd).sum
  within : ∀ userId k, totals userId k ≤ limit

theorem setTotal_apply (totals : UserId → ℕ → ℚ) (userId : UserId) (key : ℕ) (total : ℚ)
    (u : UserId) (k : ℕ) :
    setTotal totals userId key total u k = if userId = u ∧ key = k then total else totals u k := by
  unfold setTotal
  by_cases hu : userId = u
  · subst hu
    by_cases hk : key = k
    · subst hk
      simp
    · simp [hk, Function.update_of_ne (Ne.symm hk)]
  · simp [hu, Function.update_of_ne (Ne.symm hu)]

/-- An accepted amount goes to the total of its key and to no other. -/
theorem Accumulates.add {key : Acceptance → ℕ} {limit : ℚ} {totals : UserId → ℕ → ℚ}
    {accepted : List Acceptance} (h : Accumulates key limit totals accepted) (a : Acceptance)
    (hle : totals a.userId (key a) + a.amountUsd ≤ limit) :
    Accumulates key limit
      (setTotal totals a.userId (key a) (totals a.userId (key a) + a.amountUsd))
      (accepted ++ [a]) := by
  constructor
  case sum =>
    intro u k
    rw [setTotal_apply, List.filter_append, List.map_append, List.sum_append]
    by_cases hmatch : a.userId = u ∧ key a = k
    · have hfilter : [a].filter (under key u k) = [a] :=
        List.filter_cons_of_pos (by simpa [under] using hmatch)
      rw [if_pos hmatch, hfilter, ← h.sum u k, hmatch.1, hmatch.2]
      simp
    · have hfilter : [a].filter (under key u k) = [] :=
        List.filter_cons_of_neg (by simpa [under] using hmatch)
      rw [if_neg hmatch, hfilter, ← h.sum u k]
      simp
  case within =>
    intro u k
    rw [setTotal_apply]
    split
    · exact hle
    · exact h.within u k

theorem sum_filter_pos {accepted : List Acceptance} (h : ∀ a ∈ accepted, 0 ≤ a.amountUsd)
    (p : Acceptance → Bool) :
    volume accepted p = ((accepted.filter p).map Acceptance.amountUsd).sum := by
  unfold volume
  induction accepted with
  | nil => rfl
  | cons a rest ih =>
    have hrest := ih fun b hb => h b (List.mem_cons_of_mem _ hb)
    have ha := h a (List.mem_cons_self ..)
    cases hp : p a with
    | false =>
      rw [List.filter_cons_of_neg (by simp [hp]), List.filter_cons_of_neg (by simp [hp]), hrest]
    | true =>
      rw [List.filter_cons_of_pos hp]
      rcases ha.lt_or_eq with hpos | hzero
      · rw [List.filter_cons_of_pos (by simp [hp, hpos]), List.map_cons, List.map_cons,
          List.sum_cons, List.sum_cons, hrest]
      · rw [List.filter_cons_of_neg (by simp [← hzero]), hrest, List.map_cons, List.sum_cons,
          ← hzero, zero_add]

/-- With no negative amount, the accumulator is the volume. -/
theorem Accumulates.volume_le {key : Acceptance → ℕ} {limit : ℚ} {totals : UserId → ℕ → ℚ}
    {accepted : List Acceptance} (h : Accumulates key limit totals accepted)
    (hnonneg : ∀ a ∈ accepted, 0 ≤ a.amountUsd) (userId : UserId) (k : ℕ) :
    volume accepted (under key userId k) ≤ limit := by
  rw [sum_filter_pos hnonneg, ← h.sum]
  exact h.within userId k

-- ---------------------------------------------------------------------------
-- Every interleaving
-- ---------------------------------------------------------------------------

/-- No amount that is accepted has a negative value in USD. -/
def noNegative : Discipline LimitCall LimitCmd LimitCmd.Reply Err LimitState Unit where
  onCall _ _ _ := True
  onStep _ _ c failed := failed = false →
    ∀ userId amountUsd day month, c = .accumulate userId amountUsd day month → 0 ≤ amountUsd

/-- What holds of the accumulators and of what was accepted. -/
structure Kept (settings : Settings) (s : LimitState) : Prop where
  single : ∀ a ∈ s.accepted, a.amountUsd ≤ settings.singleTxLimitUsd
  nonneg : ∀ a ∈ s.accepted, 0 ≤ a.amountUsd
  daily : Accumulates Acceptance.day settings.dailyLimitUsd s.dailyTotals s.accepted
  monthly : Accumulates Acceptance.month settings.monthlyLimitUsd s.monthlyTotals s.accepted

theorem Kept.holds {settings : Settings} {s : LimitState} (h : Kept settings s) :
    LimitsHold settings s :=
  ⟨h.single, h.daily.volume_le h.nonneg, h.monthly.volume_le h.nonneg⟩

theorem kept_fresh {settings : Settings} (hday : 0 ≤ settings.dailyLimitUsd)
    (hmonth : 0 ≤ settings.monthlyLimitUsd) (usdRate : String → Option ℚ) (now : Time) :
    Kept settings (.fresh usdRate now) := by
  refine ⟨?_, ?_, ⟨fun _ _ => rfl, fun _ _ => hday⟩, ⟨fun _ _ => rfl, fun _ _ => hmonth⟩⟩
  · intro a ha
    cases ha
  · intro a ha
    cases ha

/-- At every await of a call: what is accumulated is within the single limit,
and the call returns after it. -/
def Bounded (settings : Settings) :
    (c : LimitCmd) → (Except Err c.Reply → LimitProc Unit) → Prop
  | .accumulate _ amountUsd _ _, next =>
    amountUsd ≤ settings.singleTxLimitUsd ∧ next (.ok ()) = .done (.ok ())
  | _, _ => True

theorem checkUsd_bounded (settings : Settings) (userId : UserId) (amountUsd : ℚ) :
    (checkUsd settings userId amountUsd).Always (fun _ _ => True) (Bounded settings) := by
  unfold checkUsd
  simp only [Proc.bind_eq]
  by_cases hsingle : settings.singleTxLimitUsd < amountUsd
  · rw [Proc.rejectWhen_pos hsingle]
    exact .done _
  · rw [Proc.rejectWhen_neg hsingle, Proc.done_ok_bind]
    refine Proc.always_call_bind trivial fun today _ => ?_
    refine Proc.always_call_bind trivial fun thisMonth _ => ?_
    exact .await ⟨not_lt.mp hsingle, rfl⟩ (fun _ _ => .done _) fun _ => .done _

theorem prog_bounded (settings : Settings) (k : LimitCall) :
    (prog settings k).Always (fun _ _ => True) (Bounded settings) := by
  cases k with
  | check userId amount currency =>
    show (check settings userId amount currency).Always _ _
    unfold check toUsd
    split
    · exact checkUsd_bounded settings userId amount
    · simp only [Proc.bind_eq, Proc.bind_assoc, Proc.pure_eq, Proc.done_ok_bind]
      exact Proc.always_call_bind trivial fun rate _ => checkUsd_bounded settings userId _
  | tick ms => exact .await trivial (fun _ _ => .done _) fun _ => .done _
  | quote currency rate => exact .await trivial (fun _ _ => .done _) fun _ => .done _

/-- One command, with the amount it accumulates in bounds. -/
theorem exec_kept {settings : Settings} {c : LimitCmd} {s s' : LimitState} {a : c.Reply}
    {next : Except Err c.Reply → LimitProc Unit} (hbounded : Bounded settings c next)
    (hnonneg : ∀ userId amountUsd day month, c = .accumulate userId amountUsd day month →
      0 ≤ amountUsd)
    (hs : Kept settings s) (h : exec settings c s = .ok (a, s')) : Kept settings s' := by
  cases c with
  | getRate currency =>
    rw [exec] at h
    split at h
    · cases h
    · cases h
      exact hs
  | accumulate userId amountUsd day month =>
    rw [exec] at h
    split at h
    · cases h
    · rename_i s₁ hacc
      cases h
      obtain ⟨hday, hmonth, rfl⟩ := accumulate_ok hacc
      refine ⟨?_, ?_, hs.daily.add ⟨userId, amountUsd, day, month⟩ hday,
        hs.monthly.add ⟨userId, amountUsd, day, month⟩ hmonth⟩
      · intro x hx
        rcases List.mem_append.mp hx with hold | hnew
        · exact hs.single x hold
        · rw [List.mem_singleton.mp hnew]
          exact hbounded.1
      · intro x hx
        rcases List.mem_append.mp hx with hold | hnew
        · exact hs.nonneg x hold
        · rw [List.mem_singleton.mp hnew]
          exact hnonneg _ _ _ _ rfl
  | _ =>
    cases h
    exact ⟨hs.single, hs.nonneg, hs.daily, hs.monthly⟩

/-- Only `accumulate` touches the accumulators. -/
theorem exec_totals {settings : Settings} {c : LimitCmd} {s s' : LimitState} {a : c.Reply}
    (h : exec settings c s = .ok (a, s'))
    (hc : ∀ userId amountUsd day month, c ≠ .accumulate userId amountUsd day month) :
    s'.dailyTotals = s.dailyTotals ∧ s'.monthlyTotals = s.monthlyTotals := by
  cases c with
  | getRate currency =>
    rw [exec] at h
    split at h
    · cases h
    · cases h
      exact ⟨rfl, rfl⟩
  | accumulate userId amountUsd day month => exact absurd rfl (hc _ _ _ _)
  | _ =>
    cases h
    exact ⟨rfl, rfl⟩

/-- A step of this call that changes an accumulator is its last, and the call
returns: a check that throws has left the accumulators alone. -/
def RejectedUnchanged (settings : Settings) (cfg : LimitConfig) : Prop :=
  ∀ i k fault cfg', cfg.called i = some k →
    (server settings).step cfg (.step i fault) = some cfg' →
    ¬ (cfg'.state.dailyTotals = cfg.state.dailyTotals ∧
      cfg'.state.monthlyTotals = cfg.state.monthlyTotals) →
    (cfg'.thread i).map Thread.proc = some (.done (.ok ()))

/-- **The limits hold.** In every configuration reached by any interleaving of
checks, clock and rates in which no amount accepted is negative. -/
theorem limits_hold {settings : Settings} (hday : 0 ≤ settings.dailyLimitUsd)
    (hmonth : 0 ≤ settings.monthlyLimitUsd) {usdRate : String → Option ℚ} {now : Time}
    {cfg : LimitConfig} (h : Reach (server settings) noNegative (start usdRate now) cfg) :
    LimitsHold settings cfg.state ∧ RejectedUnchanged settings cfg := by
  have hkept := h.always (I := Kept settings) (G := fun _ _ => True)
    (Q := fun _ _ => Bounded settings) (kept_fresh hday hmonth usdRate now) rfl
    (fun _ k => prog_bounded settings k) (by
      intro cfg i th c next a s' _ hbounded hs hD hexec
      exact ⟨exec_kept hbounded (hD rfl) hs hexec, trivial⟩)
  refine ⟨hkept.1.holds, ?_⟩
  intro i k fault cfg' hcalled hstep hchanged
  obtain ⟨c, next, hbounded, hstate, hthread⟩ :=
    Reach.step_always (fun th hth _ => hkept.2 i th hth) hcalled hstep
  cases hout : outcome fault ((server settings).exec c cfg.state) with
  | error e =>
    rw [hstate, hout] at hchanged
    exact absurd ⟨rfl, rfl⟩ hchanged
  | ok r =>
    obtain ⟨a, s'⟩ := r
    have hexec : exec settings c cfg.state = .ok (a, s') := (outcome_eq_ok hout).2
    rw [hstate, hout] at hchanged
    rw [hthread, hout]
    cases c with
    | accumulate userId amountUsd day month => exact congrArg some hbounded.2
    | _ =>
      refine absurd (exec_totals hexec ?_) hchanged
      intro _ _ _ _ hc
      cases hc

/-- The condition of `noNegative`, evaluated. -/
def checkNonneg (_ : LimitConfig) (_ : Thread LimitCall LimitCmd LimitCmd.Reply Err Unit)
    (c : LimitCmd) (failed : Bool) : Bool :=
  failed || match c with
    | .accumulate _ amountUsd _ _ => decide (0 ≤ amountUsd)
    | _ => true

theorem noNegative_of_check {cfg : LimitConfig}
    {th : Thread LimitCall LimitCmd LimitCmd.Reply Err Unit} {c : LimitCmd} {b : Bool}
    (h : checkNonneg cfg th c b = true) : noNegative.onStep cfg th c b := by
  rintro rfl userId amountUsd day month rfl
  simpa [checkNonneg] using h

/-- A check from the call to its end, without suspension. -/
def checkEvents (i : ℕ) (amount : ℚ) : List (Event LimitCall Err) :=
  [.call i (.check 1 amount "USD"), .step i none, .step i none, .step i none]

/-- Two checks of 25000 USD are accepted, the third would exceed the day. -/
theorem limits_hold_three_checks : ∃ cfg : LimitConfig,
    Reach (server {}) noNegative (start (fun _ => none) 0) cfg ∧
    cfg.state.accepted.map Acceptance.amountUsd = [25000, 25000] ∧
    LimitsHold {} cfg.state ∧ RejectedUnchanged {} cfg := by
  obtain ⟨cfg, hrun⟩ : ∃ cfg, (server {}).runChecked checkNonneg (start (fun _ => none) 0)
      (checkEvents 0 25000 ++ checkEvents 1 25000 ++ checkEvents 2 1) = some cfg :=
    Option.isSome_iff_exists.mp (by decide +kernel)
  have hfinal : (((server {}).runChecked checkNonneg (start (fun _ => none) 0)
      (checkEvents 0 25000 ++ checkEvents 1 25000 ++ checkEvents 2 1)).map fun cfg =>
        cfg.state.accepted.map Acceptance.amountUsd) = some [25000, 25000] := by decide +kernel
  rw [hrun] at hfinal
  have hreach : Reach (server {}) noNegative (start (fun _ => none) 0) cfg :=
    Reach.refl.of_runChecked (fun _ _ _ _ => trivial) (fun _ _ _ _ => noNegative_of_check) hrun
  exact ⟨cfg, hreach, Option.some.inj hfinal, limits_hold (by norm_num) (by norm_num) hreach⟩

/-- A negative amount first: then twice the daily limit is accepted in one day. -/
theorem limits_exceeded : ∃ cfg : LimitConfig,
    Reach (server {}) .free (start (fun _ => none) 0) cfg ∧
    volume cfg.state.accepted (under Acceptance.day 1 (dayOf 0)) = 100000 ∧
    ¬ LimitsHold {} cfg.state := by
  obtain ⟨cfg, hcfg⟩ : ∃ cfg, cfg = (server {}).play (start (fun _ => none) 0)
      (checkEvents 0 (-50000) ++ checkEvents 1 25000 ++ checkEvents 2 25000 ++
        checkEvents 3 25000 ++ checkEvents 4 25000) := ⟨_, rfl⟩
  have hvolume : volume cfg.state.accepted (under Acceptance.day 1 (dayOf 0)) = 100000 := by
    rw [hcfg]
    decide +kernel
  refine ⟨cfg, ?_, hvolume, ?_⟩
  · rw [hcfg]
    exact Reach.play _ .refl
  · intro hlimits
    have hdaily := hlimits.daily 1 (dayOf 0)
    rw [hvolume] at hdaily
    norm_num at hdaily

end Limits

end NexaFx
