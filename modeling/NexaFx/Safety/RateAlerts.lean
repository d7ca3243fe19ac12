import NexaFx.Model.RateAlerts

/-!
# NexaFx — rate alerts

Any sequence of calls. Each alert goes its own way, whatever becomes of the
others.

* `alerts_fire_once` — an alert is emitted at the first check after its creation
  whose rate breaches its target, unless it is deactivated before, and never
  again.
-/

namespace NexaFx

namespace RateAlerts

/-- The alert a call creates. -/
def Call.created : Call → Option RateAlert
  | .create id userId currencyPair targetRate direction createdAt =>
    some ⟨id, userId, currencyPair, targetRate, direction, false, createdAt⟩
  | _ => none

/-- The ids that calls give out. -/
def ids (calls : List Call) : List String := (calls.filterMap Call.created).map RateAlert.id

/-- What is emitted for the alert, from the calls after its creation alone. -/
def fate (alert : RateAlert) : List Call → Option Triggered
  | [] => none
  | .create _ _ _ _ _ _ :: rest => fate alert rest
  | .deactivate alertId :: rest => if alertId = alert.id then none else fate alert rest
  | .checkThresholds rates :: rest =>
    match alert.breach rates with
    | some rate => some (alert.event rate)
    | none => fate alert rest

/-- What has been emitted for the id. -/
def State.eventsOf (st : State) (id : String) : List Triggered :=
  st.events.filter fun e => decide (e.alertId = id)

/-- The alerts with the id. -/
def State.alertsOf (st : State) (id : String) : List RateAlert :=
  st.alerts.filter fun a => decide (a.id = id)

-- ---------------------------------------------------------------------------
-- One call, for one id
-- ---------------------------------------------------------------------------

/-- What a call that does not create the id makes of its alerts, and emits. -/
def advance (id : String) (alerts : List RateAlert) : Call → List RateAlert × List Triggered
  | .create _ _ _ _ _ _ => (alerts, [])
  | .deactivate alertId => (if alertId = id then trigger id alerts else alerts, [])
  | .checkThresholds rates => checkAll rates alerts

section One

variable {id : String}

/-- Triggering by id is triggering among those with the id. -/
theorem trigger_filter (alertId : String) (alerts : List RateAlert) :
    (trigger alertId alerts).filter (fun a => decide (a.id = id)) =
      if alertId = id then trigger id (alerts.filter fun a => decide (a.id = id))
      else alerts.filter fun a => decide (a.id = id) := by
  induction alerts with
  | nil => split <;> rfl
  | cons a rest ih =>
    rw [trigger]
    by_cases ha : a.id = id
    · simp only [List.filter_cons, ha, decide_true, if_true, trigger]
      by_cases hid : alertId = id
      · simp [hid]
      · rw [if_neg (Ne.symm hid), if_neg hid] at *
        simp [ha, ih]
    · simp only [List.filter_cons, ha, decide_false, Bool.false_eq_true, if_false]
      split
      · rename_i heq
        rw [if_neg fun h => ha (heq.trans h)]
        simp [ha]
      · simp only [List.filter_cons, ha, decide_false, Bool.false_eq_true, if_false]
        exact ih

/-- A check of all alerts is a check of those with the id. -/
theorem checkAll_filter (id : String) (rates : Rates) (alerts : List RateAlert) :
    (checkAll rates alerts).1.filter (fun a => decide (a.id = id)) =
      (checkAll rates (alerts.filter fun a => decide (a.id = id))).1 ∧
    (checkAll rates alerts).2.filter (fun e => decide (e.alertId = id)) =
      (checkAll rates (alerts.filter fun a => decide (a.id = id))).2 := by
  induction alerts with
  | nil => exact ⟨rfl, rfl⟩
  | cons a rest ih =>
    obtain ⟨ih₁, ih₂⟩ := ih
    by_cases ha : a.id = id
    · have hcons : (a :: rest).filter (fun a => decide (a.id = id)) =
          a :: rest.filter fun a => decide (a.id = id) :=
        List.filter_cons_of_pos (by simpa using ha)
      rw [hcons, checkAll, checkAll]
      split
      · exact ⟨by simp [ha, ih₁], ih₂⟩
      · split
        · exact ⟨by simp [ha, ih₁], ih₂⟩
        · exact ⟨by simp [ha, ih₁], by simp [ha, ih₂, RateAlert.event]⟩
    · have hcons : (a :: rest).filter (fun a => decide (a.id = id)) =
          rest.filter fun a => decide (a.id = id) := List.filter_cons_of_neg (by simpa using ha)
      rw [hcons, checkAll]
      split
      · exact ⟨by simp [ha, ih₁], ih₂⟩
      · split
        · exact ⟨by simp [ha, ih₁], ih₂⟩
        · exact ⟨by simp [ha, ih₁], by simp [ha, ih₂, RateAlert.event]⟩

theorem step_advance (st : State) {call : Call} (hcreated : id ∉ ids [call]) :
    (st.step call).alertsOf id = (advance id (st.alertsOf id) call).1 ∧
    (st.step call).eventsOf id = st.eventsOf id ++ (advance id (st.alertsOf id) call).2 := by
  cases call with
  | create id' userId pair target direction createdAt =>
    have hne : ¬ id' = id := fun h => hcreated (by simp [ids, Call.created, h])
    refine ⟨?_, (List.append_nil _).symm⟩
    show (st.alerts ++ [_]).filter _ = st.alertsOf id
    rw [List.filter_append, List.filter_cons_of_neg (by simpa using hne), List.filter_nil,
      List.append_nil]
    rfl
  | deactivate alertId => exact ⟨trigger_filter alertId st.alerts, (List.append_nil _).symm⟩
  | checkThresholds rates =>
    obtain ⟨halerts, hevents⟩ := checkAll_filter id rates st.alerts
    refine ⟨halerts, ?_⟩
    show (st.events ++ _).filter _ = _
    rw [List.filter_append, hevents]
    rfl

end One

-- ---------------------------------------------------------------------------
-- Runs
-- ---------------------------------------------------------------------------

section Runs

variable {id : String} {st : State}

theorem run_cons (st : State) (call : Call) (calls : List Call) :
    st.run (call :: calls) = (st.step call).run calls := rfl

theorem run_append (st : State) (calls calls' : List Call) :
    st.run (calls ++ calls') = (st.run calls).run calls' := List.foldl_append

theorem ids_append (calls calls' : List Call) :
    ids (calls ++ calls') = ids calls ++ ids calls' := by
  rw [ids, List.filterMap_append, List.map_append, ← ids, ← ids]

theorem not_mem_ids_cons {call : Call} {calls : List Call} (h : id ∉ ids (call :: calls)) :
    id ∉ ids [call] ∧ id ∉ ids calls := by
  rw [show call :: calls = [call] ++ calls from rfl, ids_append, List.mem_append, not_or] at h
  exact h

/-- Without an alert of the id nothing is emitted for it. -/
theorem run_unborn {calls : List Call} (hids : id ∉ ids calls) (halerts : st.alertsOf id = []) :
    (st.run calls).alertsOf id = [] ∧ (st.run calls).eventsOf id = st.eventsOf id := by
  induction calls generalizing st with
  | nil => exact ⟨halerts, rfl⟩
  | cons call calls ih =>
    obtain ⟨hcall, hrest⟩ := not_mem_ids_cons hids
    obtain ⟨halerts', hevents'⟩ := step_advance st hcall
    have hnone : advance id [] call = ([], []) := by
      cases call with
      | deactivate alertId => simp [advance, trigger]
      | _ => rfl
    rw [halerts, hnone] at halerts' hevents'
    obtain ⟨hend, hlog⟩ := ih hrest halerts'
    rw [run_cons]
    exact ⟨hend, by rw [hlog, hevents', List.append_nil]⟩

/-- An alert that has been triggered stays so and emits nothing more. -/
theorem run_triggered {calls : List Call} {a : RateAlert} (hids : a.id ∉ ids calls)
    (halerts : st.alertsOf a.id = [a]) (ha : a.triggered = true) :
    (st.run calls).eventsOf a.id = st.eventsOf a.id := by
  induction calls generalizing st with
  | nil => rfl
  | cons call calls ih =>
    obtain ⟨hcall, hrest⟩ := not_mem_ids_cons hids
    obtain ⟨halerts', hevents'⟩ := step_advance st hcall
    have hsame : { a with triggered := true } = a := by
      cases a
      cases ha
      rfl
    have hstays : advance a.id [a] call = ([a], []) := by
      cases call with
      | create => rfl
      | deactivate alertId => simp [advance, trigger, hsame]
      | checkThresholds rates => simp [advance, checkAll, ha]
    rw [halerts, hstays] at halerts' hevents'
    rw [run_cons, ih hrest halerts', hevents', List.append_nil]

/-- An alert that is waiting meets its fate. -/
theorem run_waiting {calls : List Call} {a : RateAlert} (hids : a.id ∉ ids calls)
    (halerts : st.alertsOf a.id = [a]) (ha : a.triggered = false) :
    (st.run calls).eventsOf a.id = st.eventsOf a.id ++ (fate a calls).toList := by
  induction calls generalizing st with
  | nil => exact (List.append_nil _).symm
  | cons call calls ih =>
    obtain ⟨hcall, hrest⟩ := not_mem_ids_cons hids
    obtain ⟨halerts', hevents'⟩ := step_advance st hcall
    rw [halerts] at halerts' hevents'
    rw [run_cons]
    cases call with
    | create =>
      rw [advance, List.append_nil] at hevents'
      rw [ih hrest halerts', hevents', fate]
    | deactivate alertId =>
      rw [advance, List.append_nil] at hevents'
      rw [fate]
      by_cases hid : alertId = a.id
      · rw [advance, if_pos hid, trigger, if_pos rfl] at halerts'
        rw [if_pos hid, run_triggered (a := { a with triggered := true }) hrest halerts' rfl,
          hevents']
        exact (List.append_nil _).symm
      · rw [advance, if_neg hid] at halerts'
        rw [if_neg hid, ih hrest halerts', hevents']
    | checkThresholds rates =>
      rw [advance, checkAll, if_neg (by simp [ha])] at halerts' hevents'
      rw [fate]
      cases hbreach : a.breach rates with
      | none =>
        rw [hbreach] at halerts' hevents'
        simp only [checkAll, List.append_nil] at halerts' hevents' ⊢
        rw [ih hrest halerts', hevents']
      | some rate =>
        rw [hbreach] at halerts' hevents'
        simp only [checkAll] at halerts' hevents'
        rw [run_triggered (a := { a with triggered := true }) hrest halerts' rfl, hevents']
        rfl

/-- **Each alert fires once, by itself.** -/
theorem alerts_fire_once {before after : List Call} {call : Call} {alert : RateAlert}
    (hcreated : call.created = some alert) (hids : (ids (before ++ call :: after)).Nodup) :
    (empty.run (before ++ call :: after)).eventsOf alert.id = (fate alert after).toList := by
  cases call with
  | deactivate | checkThresholds => cases hcreated
  | create id userId pair target direction createdAt =>
    cases hcreated
    rw [ids_append, show ids (_ :: after) = id :: ids after from rfl,
      List.nodup_middle, List.nodup_cons, List.mem_append, not_or] at hids
    obtain ⟨⟨hbefore, hafter⟩, -⟩ := hids
    obtain ⟨hunborn, hnothing⟩ : (empty.run before).alertsOf id = [] ∧
        (empty.run before).eventsOf id = [] := run_unborn hbefore rfl
    rw [run_append, run_cons, run_waiting hafter ?_ rfl]
    · show ((empty.run before).eventsOf id) ++ _ = _
      rw [hnothing]
      exact List.nil_append _
    · show ((empty.run before).alerts ++ [_]).filter _ = [_]
      rw [List.filter_append, List.filter_cons_of_pos (by simp), List.filter_nil]
      exact congrArg (· ++ _) hunborn

/-- Alert `a` on EUR-USD from 1.10 and an alert on GBP-USD, checked twice. -/
theorem alerts_fire_once_twice :
    (empty.run ([.create "b" 2 "GBP-USD" 1 .below 0] ++
      .create "a" 1 "EUR-USD" (11 / 10) .above 5 ::
      [.checkThresholds fun pair => if pair = "EUR-USD" then some (12 / 10) else none,
        .checkThresholds fun pair => if pair = "EUR-USD" then some (13 / 10) else none])).eventsOf
      "a" = [⟨"a", 1, "EUR-USD", 12 / 10⟩] :=
  (@alerts_fire_once _ _ _ ⟨"a", 1, "EUR-USD", 11 / 10, .above, false, 5⟩ rfl (by decide)).trans
    (by decide +kernel)

end Runs

end RateAlerts

end NexaFx
