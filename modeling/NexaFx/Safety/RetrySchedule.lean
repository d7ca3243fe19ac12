import NexaFx.Safety.RetryQueue

/-!
# NexaFx — the schedule of the retries

A delivery whose last attempt has failed, and the runs of the retry job and the
manual retries after it, one after the other.

Three things keep the code from its schedule. The processor never sets
`nextRetryAt`, so that a delivery is due only if a manual retry has set it. The
backoff is looked up with the number of the retry instead of the number before
it. And `nextRetryAt: undefined` leaves the column as it is, so that a delivery
whose retries are used up is selected again.

* `Untouched` — what a retry leaves alone.
* `runOnce_cases` — what a run does to one delivery.
* `Tracked` — the retry count is the number of retries sent since the last
  reset.

Main result: `retry_schedule_iff`.
-/

namespace NexaFx

open Async Proc

namespace Webhooks

-- ---------------------------------------------------------------------------
-- One delivery
-- ---------------------------------------------------------------------------

/-- What is noted of the delivery. -/
def ownEvents (id : DeliveryId) (log : List PostEvent) : List PostEvent :=
  log.filter fun e => e.delivery = id

/-- The delivery is left alone, and so is what decides about it. -/
structure Untouched (id : DeliveryId) (st st' : WebhookDb) : Prop where
  delivery : st'.delivery id = st.delivery id
  events : ownEvents id st'.log = ownEvents id st.log
  endpoints : st'.endpoints = st.endpoints
  net : st'.net = st.net

section Untouched

variable {id : DeliveryId} {st st' st'' : WebhookDb} {r : WebhookDelivery}

theorem Untouched.refl (id : DeliveryId) (st : WebhookDb) : Untouched id st st :=
  ⟨rfl, rfl, rfl, rfl⟩

theorem Untouched.trans (h : Untouched id st st') (h' : Untouched id st' st'') :
    Untouched id st st'' where
  delivery := h'.delivery.trans h.delivery
  events := h'.events.trans h.events
  endpoints := h'.endpoints.trans h.endpoints
  net := h'.net.trans h.net

theorem ownEvents_append (id : DeliveryId) (log events : List PostEvent) :
    ownEvents id (log ++ events) = ownEvents id log ++ ownEvents id events :=
  List.filter_append ..

theorem ownEvents_others {events : List PostEvent} (h : ∀ e ∈ events, e.delivery ≠ id) :
    ownEvents id events = [] := by
  unfold ownEvents
  rw [List.filter_eq_nil_iff]
  intro e he
  simpa using h e he

theorem ownEvents_own {events : List PostEvent} (h : ∀ e ∈ events, e.delivery = id) :
    ownEvents id events = events := by
  unfold ownEvents
  rw [List.filter_eq_self]
  intro e he
  simpa using h e he

/-- What is noted of other deliveries. -/
theorem ownEvents_append_others (log : List PostEvent) {events : List PostEvent}
    (h : ∀ e ∈ events, e.delivery ≠ id) : ownEvents id (log ++ events) = ownEvents id log := by
  rw [ownEvents_append, ownEvents_others h, List.append_nil]

/-- An update of another delivery. -/
theorem untouched_update (st : WebhookDb) {id' : DeliveryId} (hne : id' ≠ id)
    (patch : DeliveryPatch) : Untouched id st (st.update id' patch) := by
  unfold WebhookDb.update
  split
  · exact .refl id st
  · rename_i row hrow
    have hid : ((patch.apply row).touch st.now).id ≠ id := by
      rw [show ((patch.apply row).touch st.now).id = row.id from rfl, id_of_delivery hrow]
      exact hne
    refine ⟨?_, ?_, rfl, rfl⟩
    · show (st.put _).delivery id = _
      rw [delivery_put, if_neg hid]
    · refine ownEvents_append_others st.log fun e he => ?_
      split at he
      · rw [List.mem_singleton.mp he]
        exact hne
      · cases he

/-- The request for another delivery is sent and answered. -/
theorem untouched_answered (st : WebhookDb) {id' : DeliveryId} (hne : id' ≠ id) :
    Untouched id st (st.answered id') := by
  refine ⟨rfl, ?_, rfl, rfl⟩
  show ownEvents id ((st.log ++ [.sent id']) ++ _) = _
  rw [List.append_assoc]
  refine ownEvents_append_others st.log fun e he => ?_
  rcases List.mem_append.mp he with he | he
  · rw [List.mem_singleton.mp he]
    exact hne
  · dsimp only at he
    split at he
    · rw [List.mem_singleton.mp he]
      exact hne
    · cases he

theorem untouched_retryStep (st : WebhookDb) (hne : r.id ≠ id) :
    Untouched id st (retryStep st r) := by
  unfold retryStep
  split
  · exact untouched_update st hne exhausted
  · split
    · exact .refl id st
    · split
      · exact .refl id st
      · dsimp only
        split
        · exact (untouched_answered st hne).trans (untouched_update _ hne _)
        · exact (untouched_answered st hne).trans (untouched_update _ hne _)

theorem untouched_foldl {due : List WebhookDelivery} (st : WebhookDb)
    (hne : ∀ r ∈ due, r.id ≠ id) : Untouched id st (due.foldl retryStep st) := by
  induction due generalizing st with
  | nil => exact .refl id st
  | cons r due ih =>
    exact (untouched_retryStep st (hne r (List.mem_cons_self ..))).trans
      (ih _ fun r' hr' => hne r' (List.mem_cons_of_mem _ hr'))

end Untouched

-- ---------------------------------------------------------------------------
-- What a run does to it
-- ---------------------------------------------------------------------------

/-- The state in which the run comes to the delivery. -/
def comesTo (st : WebhookDb) (id : DeliveryId) : WebhookDb :=
  (st.findDue.takeWhile fun r => r.id ≠ id).foldl retryStep st

/-- What the endpoint answers to the retry of the delivery in a run. -/
def answerTo (st : WebhookDb) (id : DeliveryId) : Except Thrown ℕ :=
  (st.net (comesTo st id).served).result

/-- What a run that takes the row `r` leaves of it. -/
inductive Taken (id : DeliveryId) (st st' : WebhookDb) (r : WebhookDelivery) : Prop where
  | exhausted {now : Time} (hused : ¬ r.Open)
    (hrow : st'.delivery id = some ((exhausted.apply r).touch now))
    (hevents : ownEvents id st'.log = ownEvents id st.log) : Taken id st st' r
  | refused {now : Time} {error : Thrown} (hopen : r.Open) (hanswer : answerTo st id = .error error)
    (hrow : st'.delivery id =
      some (((r.retried error (r.retryAt now)).apply r).touch now))
    (hevents : ownEvents id st'.log = ownEvents id st.log ++ [.sent id]) : Taken id st st' r
  | accepted {now : Time} {status : ℕ} (hopen : r.Open) (hanswer : answerTo st id = .ok status)
    (hrow : st'.delivery id = some (((r.succeeded status now).apply r).touch now))
    (hevents : ownEvents id st'.log =
      ownEvents id st.log ++ [.sent id, .answered id, .stored id]) : Taken id st st' r

section Taken

variable {id : DeliveryId} {st st' : WebhookDb} {r : WebhookDelivery}

theorem update_own (hrow : st.delivery id = some r) (patch : DeliveryPatch) :
    (st.update id patch).delivery id = some ((patch.apply r).touch st.now) ∧
      (st.update id patch).log =
        st.log ++ if patch.status = some .delivered then [.stored id] else [] := by
  have hid : ((patch.apply r).touch st.now).id = id := (id_of_delivery hrow :)
  unfold WebhookDb.update
  rw [hrow]
  refine ⟨?_, rfl⟩
  show (st.put _).delivery id = _
  rw [delivery_put, if_pos hid]

/-- The step of the delivery itself, in the state `st₁` in which the run comes
to it. -/
theorem retryStep_own {st₁ : WebhookDb} (hst : Untouched id st st₁)
    (hserved : st₁.served = (comesTo st id).served) (hrow : st.delivery id = some r)
    (hactive : Active st.endpoints r) : Taken id st (retryStep st₁ r) r := by
  have hid := id_of_delivery hrow
  have hrow₁ : st₁.delivery id = some r := hst.delivery.trans hrow
  have hanswer : answerTo st id = (st₁.net st₁.served).result := by
    unfold answerTo
    rw [hst.net, hserved]
  unfold retryStep
  split
  · rename_i hused
    rw [hid]
    obtain ⟨hrow', hlog⟩ := update_own hrow₁ exhausted
    refine .exhausted (not_lt.mpr hused) hrow' ?_
    rw [hlog, ← hst.events]
    exact congrArg (ownEvents id) (List.append_nil _)
  · rename_i hopen
    have hopen : r.Open := not_le.mp hopen
    obtain ⟨endpoint, hendpoint, hlive⟩ := hactive
    have hendpoint : st₁.endpoint r.endpointId = some endpoint := by
      unfold WebhookDb.endpoint
      rw [hst.endpoints]
      exact hendpoint
    rw [hendpoint]
    dsimp only
    rw [if_neg (by simp [hlive]), hid]
    have hsent : ∀ e ∈ [PostEvent.sent id, .answered id, .stored id], e.delivery = id := by
      simp [PostEvent.delivery]
    cases hresult : (st₁.net st₁.served).result with
    | error error =>
      obtain ⟨hrow', hlog⟩ := update_own (show (st₁.answered id).delivery id = some r from hrow₁)
        (r.retried error (r.retryAt (st₁.answered id).now))
      refine .refused hopen (hanswer.trans hresult) hrow' ?_
      have hlog' : ((st₁.answered id).update id
          (r.retried error (r.retryAt (st₁.answered id).now))).log = st₁.log ++ [.sent id] := by
        rw [hlog]
        simp [WebhookDb.answered, WebhookDb.serve, hresult, WebhookDelivery.retried]
      refine (congrArg (ownEvents id) hlog').trans ?_
      have hone : ∀ e ∈ [PostEvent.sent id], e.delivery = id :=
        fun e he => hsent e (List.mem_of_mem_head? (List.mem_singleton.mp he ▸ rfl))
      rw [ownEvents_append, hst.events, ownEvents_own hone]
    | ok status =>
      obtain ⟨hrow', hlog⟩ := update_own (show (st₁.answered id).delivery id = some r from hrow₁)
        (r.succeeded status (st₁.answered id).now)
      refine .accepted hopen (hanswer.trans hresult) hrow' ?_
      have hlog' : ((st₁.answered id).update id (r.succeeded status (st₁.answered id).now)).log =
          st₁.log ++ [.sent id, .answered id, .stored id] := by
        rw [hlog]
        simp [WebhookDb.answered, WebhookDb.serve, hresult, WebhookDelivery.succeeded]
      refine (congrArg (ownEvents id) hlog').trans ?_
      rw [ownEvents_append, hst.events, ownEvents_own hsent]

variable (sign : String → Body → String)

theorem runOnce_eq (st : WebhookDb) : runOnce sign st = st.findDue.foldl retryStep st := by
  unfold runOnce
  rw [retryFailedDeliveries_run]

/-- A run that does not take the delivery. -/
theorem runOnce_left (hnot : ∀ r ∈ st.findDue, r.id ≠ id) : Untouched id st (runOnce sign st) := by
  rw [runOnce_eq]
  exact untouched_foldl st hnot

/-- A run that takes it. -/
theorem runOnce_taken (hrow : st.delivery id = some r) (hactive : Active st.endpoints r)
    (hmem : r ∈ st.findDue) : Taken id st (runOnce sign st) r := by
  have hid := id_of_delivery hrow
  obtain ⟨pre, post, hdue⟩ := List.append_of_mem hmem
  have hnodup := nodup_findDue st
  rw [hdue, List.map_append, List.map_cons, hid] at hnodup
  have hpre : ∀ x ∈ pre, x.id ≠ id := by
    intro x hx heq
    have hdisjoint := (List.nodup_append.mp hnodup).2.2
    exact hdisjoint x.id (List.mem_map_of_mem hx) id (List.mem_cons_self ..) heq
  have hpost : ∀ x ∈ post, x.id ≠ id := by
    intro x hx heq
    have hnew := (List.nodup_cons.mp (List.nodup_append.mp hnodup).2.1).1
    exact hnew (heq ▸ List.mem_map_of_mem hx)
  have hcomes : comesTo st id = pre.foldl retryStep st := by
    unfold comesTo
    rw [hdue, List.takeWhile_append_of_pos (by simpa using hpre),
      List.takeWhile_cons_of_neg (by simpa using hid), List.append_nil]
  have hrun : runOnce sign st = post.foldl retryStep (retryStep (pre.foldl retryStep st) r) := by
    rw [runOnce_eq, hdue, List.foldl_append, List.foldl_cons]
  have hown := retryStep_own (untouched_foldl st hpre) (by rw [hcomes]) hrow hactive
  have hrest := untouched_foldl (retryStep (pre.foldl retryStep st) r) hpost
  rw [← hrun] at hrest
  cases hown with
  | exhausted hused hrow' hevents =>
    exact .exhausted hused (hrest.delivery.trans hrow') (hrest.events.trans hevents)
  | refused hopen hanswer hrow' hevents =>
    exact .refused hopen hanswer (hrest.delivery.trans hrow') (hrest.events.trans hevents)
  | accepted hopen hanswer hrow' hevents =>
    exact .accepted hopen hanswer (hrest.delivery.trans hrow') (hrest.events.trans hevents)

theorem update_endpoints (st : WebhookDb) (id : DeliveryId) (patch : DeliveryPatch) :
    (st.update id patch).endpoints = st.endpoints := by
  unfold WebhookDb.update
  split <;> rfl

theorem retryStep_endpoints (st : WebhookDb) (r : WebhookDelivery) :
    (retryStep st r).endpoints = st.endpoints := by
  unfold retryStep
  split
  · exact update_endpoints st r.id exhausted
  · split
    · rfl
    · split
      · rfl
      · dsimp only
        split
        · exact update_endpoints ..
        · exact update_endpoints ..

theorem runOnce_endpoints (st : WebhookDb) : (runOnce sign st).endpoints = st.endpoints := by
  rw [runOnce_eq]
  induction st.findDue generalizing st with
  | nil => rfl
  | cons r due ih => rw [List.foldl_cons, ih, retryStep_endpoints]

end Taken

-- ---------------------------------------------------------------------------
-- What follows
-- ---------------------------------------------------------------------------

/-- What happens after the last attempt, one after the other. -/
inductive RetryOp where
  | run
  | manualRetry (id : DeliveryId)
  | tick (ms : ℕ)
  deriving DecidableEq

/-- The state, and how much was noted of the delivery before the retry count
was last reset. -/
structure Trail where
  st : WebhookDb
  since : ℕ

/-- `manualRetry` sets the count of the row to zero. -/
def Resets (st : WebhookDb) (id : DeliveryId) : Prop :=
  ∃ r ∈ st.delivery id, r.maxRetries ≤ r.retryCount

instance (st : WebhookDb) (id : DeliveryId) : Decidable (Resets st id) :=
  inferInstanceAs (Decidable (∃ _ ∈ _, _))

namespace Trail

variable (sign : String → Body → String) (id : DeliveryId)

def next (x : Trail) : RetryOp → Trail
  | .run => ⟨runOnce sign x.st, x.since⟩
  | .manualRetry id' =>
    ⟨((manualRetry id').run exec noFault x.st).2,
      if id' = id ∧ Resets x.st id then (ownEvents id x.st.log).length else x.since⟩
  | .tick ms => ⟨{ x.st with now := x.st.now + ms }, x.since⟩

/-- The retries sent since the last reset. -/
def sends (x : Trail) : ℕ := ((ownEvents id x.st.log).drop x.since).count (.sent id)

def answers (x : Trail) : ℕ := ((ownEvents id x.st.log).drop x.since).count (.answered id)

/-- Those of them that failed. -/
def failures (x : Trail) : ℕ := x.sends id - x.answers id

/-- Something holds of every step. -/
def Along (P : Trail → RetryOp → Prop) : Trail → List RetryOp → Prop
  | _, [] => True
  | x, op :: ops => P x op ∧ Along P (x.next sign id op) ops

end Trail

/-- How long after the `k`-th failed retry the next one is due. -/
def statedBackoff (k : ℕ) : ℕ := EXPONENTIAL_BACKOFF_MS.getD (min k 3 - 1) 0

/-- The schedule, for one step and a delivery with `m` retries: a failed retry
sets the next one, there are no more than `m` of them, and when they are used up
the delivery is not selected. -/
structure OnSchedule (sign : String → Body → String) (id : DeliveryId) (m : ℕ) (x : Trail)
    (op : RetryOp) : Prop where
  backoff : (x.next sign id op).failures id = x.failures id + 1 →
    (x.next sign id op).failures id < m →
    ∃ r', (x.next sign id op).st.delivery id = some r' ∧
      r'.nextRetryAt = some (r'.updatedAt + statedBackoff ((x.next sign id op).failures id))
  cap : (x.next sign id op).sends id ≤ m
  dropped : op = .run → x.sends id = m → ∀ r ∈ x.st.findDue, r.id ≠ id

def Refused : Except Thrown ℕ → Prop
  | .error _ => True
  | .ok _ => False

instance (a : Except Thrown ℕ) : Decidable (Refused a) :=
  match a with
  | .error _ => .isTrue trivial
  | .ok _ => .isFalse not_false

/-- A run takes the delivery only while it has retries left, and the endpoint
refuses no retry but the last one and those after the second. -/
def Unharmed (id : DeliveryId) (x : Trail) : RetryOp → Prop
  | .run => ∀ r ∈ x.st.findDue, r.id = id →
    r.Open ∧ (Refused (answerTo x.st id) → r.maxRetries ≤ r.retryCount + 1 ∨ 3 ≤ r.retryCount + 1)
  | _ => True

instance (id : DeliveryId) (x : Trail) (op : RetryOp) : Decidable (Unharmed id x op) :=
  match op with
  | .run => inferInstanceAs (Decidable (∀ r ∈ x.st.findDue, _ → _ ∧ _))
  | .manualRetry _ => .isTrue trivial
  | .tick _ => .isTrue trivial

instance Trail.decidableAlong (sign : String → Body → String) (id : DeliveryId)
    {P : Trail → RetryOp → Prop} [∀ x op, Decidable (P x op)] :
    ∀ (x : Trail) (ops : List RetryOp), Decidable (x.Along sign id P ops)
  | _, [] => .isTrue trivial
  | x, op :: ops =>
    have := decidableAlong sign id (P := P) (x.next sign id op) ops
    inferInstanceAs (Decidable (P x op ∧ _))

theorem backoffMs_eq_iff {k : ℕ} (hk : 0 < k) : backoffMs k = statedBackoff k ↔ 3 ≤ k := by
  constructor
  · intro h
    by_contra hlt
    obtain rfl | rfl : k = 1 ∨ k = 2 := by omega
    · exact absurd h (by decide)
    · exact absurd h (by decide)
  · intro h
    unfold backoffMs statedBackoff
    rw [Nat.min_eq_right h, show EXPONENTIAL_BACKOFF_MS.length - 1 = 2 from rfl,
      Nat.min_eq_right (by omega)]


-- ---------------------------------------------------------------------------
-- The invariant
-- ---------------------------------------------------------------------------

/-- The row `r` of the delivery counts what has been sent since the last reset.
While it is FAILED, no retry has succeeded. -/
structure Tracked (id : DeliveryId) (m : ℕ) (x : Trail) (r : WebhookDelivery) : Prop where
  row : x.st.delivery id = some r
  active : Active x.st.endpoints r
  retries : r.maxRetries = m
  since : x.since ≤ (ownEvents id x.st.log).length
  count : x.sends id = r.retryCount
  cap : r.retryCount ≤ m
  answers : r.status = .failed → x.answers id = 0

section Tracked

variable {sign : String → Body → String} {id : DeliveryId} {m : ℕ} {x : Trail}
  {r : WebhookDelivery} {st' : WebhookDb} {events : List PostEvent}

theorem sends_append (hsince : x.since ≤ (ownEvents id x.st.log).length)
    (hevents : ownEvents id st'.log = ownEvents id x.st.log ++ events) :
    (Trail.mk st' x.since).sends id = x.sends id + events.count (.sent id) := by
  unfold Trail.sends
  rw [hevents, List.drop_append_of_le_length hsince, List.count_append]

theorem answers_append (hsince : x.since ≤ (ownEvents id x.st.log).length)
    (hevents : ownEvents id st'.log = ownEvents id x.st.log ++ events) :
    (Trail.mk st' x.since).answers id = x.answers id + events.count (.answered id) := by
  unfold Trail.answers
  rw [hevents, List.drop_append_of_le_length hsince, List.count_append]

/-- The row is found by the job. -/
theorem Tracked.mem_findDue (h : Tracked id m x r) {r' : WebhookDelivery}
    (hmem : r' ∈ x.st.findDue) (hid : r'.id = id) : r' = r := by
  have hrow := (Webhooks.mem_findDue hmem).1
  rw [hid, h.row] at hrow
  exact (Option.some.inj hrow).symm

/-- A state in which the delivery is as it was. -/
theorem Tracked.untouched (h : Tracked id m x r) (hst : Untouched id x.st st') :
    Tracked id m ⟨st', x.since⟩ r where
  row := hst.delivery.trans h.row
  active := by
    rw [hst.endpoints]
    exact h.active
  retries := h.retries
  since := by
    rw [hst.events]
    exact h.since
  count := by
    unfold Trail.sends
    rw [hst.events]
    exact h.count
  cap := h.cap
  answers hfailed := by
    unfold Trail.answers
    rw [hst.events]
    exact h.answers hfailed

/-- The row is written and `events` are noted. -/
theorem Tracked.write (h : Tracked id m x r) {r' : WebhookDelivery}
    (hrow : st'.delivery id = some r') (hendpoints : st'.endpoints = x.st.endpoints)
    (hendpoint : r'.endpointId = r.endpointId) (hretries : r'.maxRetries = r.maxRetries)
    (hevents : ownEvents id st'.log = ownEvents id x.st.log ++ events)
    (hcount : r'.retryCount = r.retryCount + events.count (.sent id)) (hcap : r'.retryCount ≤ m)
    (hanswers : r'.status = .failed → x.answers id + events.count (.answered id) = 0) :
    Tracked id m ⟨st', x.since⟩ r' where
  row := hrow
  active := by
    obtain ⟨endpoint, hmem, hlive⟩ := h.active
    refine ⟨endpoint, ?_, hlive⟩
    rw [hendpoints, hendpoint]
    exact hmem
  retries := hretries.trans h.retries
  since := by
    rw [hevents, List.length_append]
    exact le_trans h.since (Nat.le_add_right _ _)
  count := by
    rw [sends_append h.since hevents, h.count, hcount]
  cap := hcap
  answers hfailed := by
    rw [answers_append h.since hevents]
    exact hanswers hfailed

theorem count_sent_three (id : DeliveryId) :
    [PostEvent.sent id, .answered id, .stored id].count (.sent id) = 1 := by
  simp

theorem Tracked.run (h : Tracked id m x r) : ∃ r', Tracked id m (x.next sign id .run) r' := by
  by_cases hmem : r ∈ x.st.findDue
  · have hfailed := (Webhooks.mem_findDue hmem).2.1
    have hendpoints := runOnce_endpoints sign x.st
    cases runOnce_taken sign h.row h.active hmem with
    | exhausted hused hrow hevents =>
      exact ⟨_, h.write hrow hendpoints rfl rfl (hevents.trans (List.append_nil _).symm) rfl h.cap
        fun _ => h.answers hfailed⟩
    | refused hopen hanswer hrow hevents =>
      refine ⟨_, h.write hrow hendpoints rfl rfl hevents ?_ ?_ fun _ => ?_⟩
      · rw [List.count_singleton_self]
        rfl
      · have hlt : r.retryCount < r.maxRetries := hopen
        rw [h.retries] at hlt
        exact hlt
      · rw [h.answers hfailed]
        simp
    | accepted hopen hanswer hrow hevents =>
      refine ⟨_, h.write hrow hendpoints rfl rfl hevents ?_ ?_ fun hdelivered => ?_⟩
      · rw [count_sent_three id]
        rfl
      · have hlt : r.retryCount < r.maxRetries := hopen
        rw [h.retries] at hlt
        exact hlt
      · cases hdelivered
  · refine ⟨r, h.untouched (runOnce_left sign fun r' hr' hid => hmem ?_)⟩
    exact h.mem_findDue hr' hid ▸ hr'

/-- What a manual retry writes. -/
def manualPatch (r : WebhookDelivery) (now : Time) : DeliveryPatch where
  retryCount := if r.maxRetries ≤ r.retryCount then some 0 else none
  nextRetryAt := some (some now)

theorem manualRetry_run (st : WebhookDb) (id' : DeliveryId) :
    ((manualRetry id').run exec noFault st).2 =
      match st.delivery id' with
      | none => st
      | some r => st.update id' (manualPatch r st.now) := by
  unfold manualRetry
  rw [Proc.bind_eq, Proc.run_call_bind_ok rfl (show exec (.findDelivery id') st =
    .ok (st.delivery id', st) from rfl)]
  cases hrow : st.delivery id' with
  | none => rfl
  | some r =>
    unfold manualPatch
    rw [← id_of_delivery hrow]
    dsimp only
    rw [Proc.bind_eq, Proc.run_call_bind_ok rfl rfl]
    by_cases hused : r.maxRetries ≤ r.retryCount
    · rw [if_pos hused, if_pos hused]
      rfl
    · rw [if_neg hused, if_neg hused]
      rfl

/-- Nothing is noted by an update that is none of a status. -/
theorem log_update_none (st : WebhookDb) (id : DeliveryId) {patch : DeliveryPatch}
    (h : patch.status = none) : (st.update id patch).log = st.log := by
  unfold WebhookDb.update WebhookDb.note
  split
  · rfl
  · rw [h]
    exact List.append_nil _

theorem manualRetry_log (st : WebhookDb) (id' : DeliveryId) :
    ((manualRetry id').run exec noFault st).2.log = st.log := by
  rw [manualRetry_run]
  split
  · rfl
  · exact log_update_none st id' rfl

theorem Tracked.manualRetry (h : Tracked id m x r) (id' : DeliveryId) :
    ∃ r', Tracked id m (x.next sign id (.manualRetry id')) r' := by
  have hrun := manualRetry_run x.st id'
  by_cases hid : id' = id
  · subst hid
    rw [h.row] at hrun
    dsimp only at hrun
    obtain ⟨hrow, -⟩ := update_own h.row (manualPatch r x.st.now)
    have hlog := log_update_none x.st id' (show (manualPatch r x.st.now).status = none from rfl)
    have hendpoints := update_endpoints x.st id' (manualPatch r x.st.now)
    rw [← hrun] at hrow hlog hendpoints
    by_cases hused : r.maxRetries ≤ r.retryCount
    · -- the count starts anew
      have hresets : id' = id' ∧ Resets x.st id' := ⟨rfl, r, h.row, hused⟩
      have hnext : x.next sign id' (.manualRetry id') =
          ⟨((Webhooks.manualRetry id').run exec noFault x.st).2,
            (ownEvents id' x.st.log).length⟩ := by
        rw [Trail.next, if_pos hresets]
      rw [hnext]
      generalize ((Webhooks.manualRetry id').run exec noFault x.st).2 = st' at hrow hlog hendpoints
      refine ⟨_, hrow, ?_, h.retries, ?_, ?_, ?_, fun _ => ?_⟩
      · show Active st'.endpoints _
        rw [hendpoints]
        exact h.active
      · show (ownEvents id' x.st.log).length ≤ (ownEvents id' st'.log).length
        rw [hlog]
      · unfold Trail.sends
        rw [hlog, List.drop_length]
        simp [manualPatch, DeliveryPatch.apply, WebhookDelivery.touch, hused]
      · simp [manualPatch, DeliveryPatch.apply, WebhookDelivery.touch, hused]
      · unfold Trail.answers
        rw [hlog, List.drop_length]
        rfl
    · have hnext : x.next sign id' (.manualRetry id') =
          ⟨((Webhooks.manualRetry id').run exec noFault x.st).2, x.since⟩ := by
        rw [Trail.next, if_neg]
        rintro ⟨-, r', hr', hused'⟩
        obtain rfl := Option.some.inj (h.row.symm.trans hr')
        exact hused hused'
      rw [hnext]
      have hsame : ownEvents id' ((Webhooks.manualRetry id').run exec noFault x.st).2.log =
          ownEvents id' x.st.log ++ [] := by
        rw [hlog, List.append_nil]
      refine ⟨_, h.write hrow hendpoints rfl rfl hsame ?_ ?_ h.answers⟩
      · simp [manualPatch, DeliveryPatch.apply, WebhookDelivery.touch, hused]
      · simpa [manualPatch, DeliveryPatch.apply, WebhookDelivery.touch, hused] using h.cap
  · have hnext : x.next sign id (.manualRetry id') =
        ⟨((Webhooks.manualRetry id').run exec noFault x.st).2, x.since⟩ := by
      rw [Trail.next, if_neg fun hboth => hid hboth.1]
    rw [hnext, hrun]
    refine ⟨r, h.untouched ?_⟩
    split
    · exact .refl id x.st
    · exact untouched_update x.st hid _

/-- Each step keeps count. -/
theorem Tracked.next (h : Tracked id m x r) (sign : String → Body → String) (op : RetryOp) :
    ∃ r', Tracked id m (x.next sign id op) r' := by
  cases op with
  | run => exact h.run
  | manualRetry id' => exact h.manualRetry id'
  | tick ms => exact ⟨r, h.untouched ⟨rfl, rfl, rfl, rfl⟩⟩

/-- Only a run makes a retry fail. -/
theorem failures_manualRetry (x : Trail) (id' : DeliveryId) :
    (x.next sign id (.manualRetry id')).failures id ≤ x.failures id := by
  have hlog := manualRetry_log x.st id'
  unfold Trail.failures Trail.sends Trail.answers
  rw [show (x.next sign id (.manualRetry id')).st.log = x.st.log from hlog]
  show List.count _ (List.drop (if _ then _ else _) _) - _ ≤ _
  split
  · rw [List.drop_length, List.count_nil, Nat.zero_sub]
    exact Nat.zero_le _
  · rename_i hnot
    have hsince : (x.next sign id (.manualRetry id')).since = x.since := if_neg hnot
    rw [hsince]

/-- A step in which no retry fails, of a delivery that is not selected when its
retries are used up. -/
theorem Tracked.onSchedule (h : Tracked id m x r) {op : RetryOp}
    (hfailures : (x.next sign id op).failures id ≠ x.failures id + 1)
    (hdropped : op = .run → r.retryCount = m → ∀ r ∈ x.st.findDue, r.id ≠ id) :
    OnSchedule sign id m x op where
  backoff heq := absurd heq hfailures
  cap := by
    obtain ⟨r', hr'⟩ := h.next sign op
    rw [hr'.count]
    exact hr'.cap
  dropped hrun hsends := hdropped hrun (h.count.symm.trans hsends)

/-- **One step.** It is on schedule exactly when it does no harm. -/
theorem Tracked.onSchedule_iff (h : Tracked id m x r) (op : RetryOp) :
    OnSchedule sign id m x op ↔ Unharmed id x op := by
  obtain ⟨r', hr'⟩ := h.next sign op
  have hcap : (x.next sign id op).sends id ≤ m := by
    rw [hr'.count]
    exact hr'.cap
  cases op with
  | manualRetry id' =>
    refine iff_of_true (h.onSchedule ?_ nofun) trivial
    exact ne_of_lt (Nat.lt_succ_of_le (failures_manualRetry x id'))
  | tick ms => exact iff_of_true (h.onSchedule (ne_of_lt (Nat.lt_succ_self _)) nofun) trivial
  | run =>
    by_cases hmem : r ∈ x.st.findDue
    · have hfailed := h.answers (Webhooks.mem_findDue hmem).2.1
      have hid := id_of_delivery h.row
      have hunharmed : Unharmed id x .run ↔ r.Open ∧ (Refused (answerTo x.st id) →
          r.maxRetries ≤ r.retryCount + 1 ∨ 3 ≤ r.retryCount + 1) := by
        constructor
        · exact fun hall => hall r hmem hid
        · intro hr r'' hr'' hid''
          rw [h.mem_findDue hr'' hid'']
          exact hr
      rw [hunharmed]
      cases runOnce_taken sign h.row h.active hmem with
      | exhausted hused hrow hevents =>
        refine iff_of_false (fun hschedule => ?_) fun hopen => hused hopen.1
        have hall : x.sends id = m := by
          have hle : m ≤ r.retryCount := h.retries ▸ not_lt.mp hused
          rw [h.count]
          exact le_antisymm h.cap hle
        exact hschedule.dropped rfl hall r hmem hid
      | refused hopen hanswer hrow hevents =>
        have hsends : (x.next sign id .run).sends id = r.retryCount + 1 := by
          rw [← h.count, ← List.count_singleton_self (a := PostEvent.sent id)]
          exact sends_append h.since hevents
        have hanswers : (x.next sign id .run).answers id = 0 := by
          rw [← hfailed, ← Nat.add_zero (x.answers id)]
          exact (answers_append h.since hevents).trans (by simp)
        have hfailures : (x.next sign id .run).failures id = r.retryCount + 1 := by
          rw [Trail.failures, hsends, hanswers, Nat.sub_zero]
        have hlt : r.retryCount < m := h.retries ▸ hopen
        have hbefore : x.failures id = r.retryCount := by
          rw [Trail.failures, h.count, hfailed, Nat.sub_zero]
        have hbackoff := backoffMs_eq_iff (Nat.succ_pos r.retryCount)
        have hset : r.retryCount + 1 < m → ∀ now, r.retryAt now =
            some (now + backoffMs (r.retryCount + 1)) := fun hnext now => if_pos (h.retries ▸ hnext)
        constructor
        · intro hschedule
          refine ⟨hopen, fun _ => ?_⟩
          by_contra hneither
          rw [not_or, not_le, h.retries] at hneither
          obtain ⟨r'', hrow'', hnext⟩ := hschedule.backoff (by rw [hfailures, hbefore])
            (by rw [hfailures]; exact hneither.1)
          obtain rfl := Option.some.inj (hrow.symm.trans hrow'')
          rw [hfailures] at hnext
          have hwritten := hset hneither.1
          simp only [WebhookDelivery.touch, DeliveryPatch.apply, WebhookDelivery.retried, hwritten,
            Option.map_some, Option.getD_some, Option.some.injEq] at hnext
          exact hneither.2 (hbackoff.mp (Nat.add_left_cancel hnext))
        · rintro ⟨-, hlate⟩
          refine ⟨fun _ hnext => ⟨_, hrow, ?_⟩, hcap, fun _ hall => ?_⟩
          · rw [hfailures] at hnext ⊢
            have hthree : 3 ≤ r.retryCount + 1 :=
              (hlate (by rw [hanswer]; trivial)).resolve_left (by rw [h.retries]; omega)
            have hwritten := hset hnext
            simp only [WebhookDelivery.touch, DeliveryPatch.apply, WebhookDelivery.retried, hwritten,
              Option.map_some, Option.getD_some, Option.some.injEq]
            rw [hbackoff.mpr hthree]
          · rw [h.count] at hall
            omega
      | accepted hopen hanswer hrow hevents =>
        have hsends : (x.next sign id .run).sends id = r.retryCount + 1 := by
          rw [← h.count, ← count_sent_three id]
          exact sends_append h.since hevents
        have hanswers : (x.next sign id .run).answers id = 1 := by
          refine (answers_append h.since hevents).trans ?_
          rw [hfailed]
          simp
        refine iff_of_true (h.onSchedule ?_ ?_) ⟨hopen, fun hrefused => ?_⟩
        · rw [Trail.failures, Trail.failures, hsends, hanswers, hfailed, h.count]
          omega
        · intro _ hall
          have hlt : r.retryCount < m := h.retries ▸ hopen
          omega
        · rw [hanswer] at hrefused
          exact hrefused.elim
    · have hnot : ∀ r' ∈ x.st.findDue, r'.id ≠ id := fun r' hr' hid =>
        hmem (h.mem_findDue hr' hid ▸ hr')
      have hleft := runOnce_left sign hnot
      refine iff_of_true (h.onSchedule ?_ fun _ _ => hnot) fun r' hr' hid =>
        absurd hid (hnot r' hr')
      unfold Trail.failures Trail.sends Trail.answers Trail.next
      dsimp only
      rw [hleft.events]
      omega

theorem Tracked.along_iff (h : Tracked id m x r) (ops : List RetryOp) :
    Trail.Along sign id (OnSchedule sign id m) x ops ↔ Trail.Along sign id (Unharmed id) x ops := by
  induction ops generalizing x r with
  | nil => exact Iff.rfl
  | cons op ops ih =>
    obtain ⟨r', hr'⟩ := h.next sign op
    exact and_congr (h.onSchedule_iff op) (ih hr')

end Tracked

-- ---------------------------------------------------------------------------
-- From the last attempt on
-- ---------------------------------------------------------------------------

section LastAttempt

variable (config : WebhookConfig) (sign : String → Body → String) {st : WebhookDb} {job : Job}
  {made : ℕ} {r : WebhookDelivery}

/-- The last attempt of a delivery is refused. -/
structure LastAttempt (st : WebhookDb) (job : Job) (made : ℕ) (r : WebhookDelivery) : Prop where
  row : st.delivery job.deliveryId = some r
  fresh : r.retryCount = 0
  active : Active st.endpoints r
  window : ¬ job.timestamp + config.windowHours * 3600000 < st.now
  last : job.attempts ≤ made + 1
  refused : Refused (st.net st.served).result

/-- The row is written as FAILED. -/
theorem deliveryFailed_last (hlast : job.attempts ≤ made + 1) (delivery : WebhookDelivery)
    (error : Thrown) (st : WebhookDb) :
    ((deliveryFailed job made delivery error).run exec noFault st).2.delivery delivery.id =
        some ((delivery.reject error).fail.touch st.now) ∧
      ((deliveryFailed job made delivery error).run exec noFault st).2.endpoints =
        st.endpoints := by
  unfold deliveryFailed
  rw [if_pos hlast]
  refine ⟨?_, rfl⟩
  show (st.put ((delivery.reject error).fail.touch st.now)).delivery delivery.id = _
  rw [delivery_put]
  exact if_pos rfl

/-- It leaves `nextRetryAt` as it was. -/
theorem LastAttempt.deliver (h : LastAttempt config st job made r) :
    ∃ r', ((deliver config sign job made).run exec noFault st).2.delivery job.deliveryId =
        some r' ∧ r'.status = .failed ∧ r'.nextRetryAt = r.nextRetryAt ∧
      r'.retryCount = r.retryCount ∧ r'.maxRetries = r.maxRetries ∧
      Active ((deliver config sign job made).run exec noFault st).2.endpoints r' := by
  obtain ⟨endpoint, hendpoint, hlive⟩ := h.active
  have hendpoint' : st.endpoint r.endpointId = some endpoint := hendpoint
  have hid := id_of_delivery h.row
  cases hanswer : (st.net st.served).result with
  | ok status =>
    have hrefused := h.refused
    rw [hanswer] at hrefused
    exact hrefused.elim
  | error error =>
    unfold Webhooks.deliver
    simp only [Proc.bind_eq]
    rw [Proc.run_call_bind_ok rfl (show exec (.findDelivery job.deliveryId) st =
      .ok (some r, st) by rw [exec, h.row])]
    dsimp only
    rw [Proc.run_call_bind_ok rfl (show exec (.findEndpoint r.endpointId) st =
      .ok (some endpoint, st) by rw [exec, hendpoint'])]
    dsimp only
    rw [Proc.run_call_bind_ok rfl rfl, if_neg h.window, Proc.run_call_bind_ok rfl rfl,
      Proc.run_call_bind_ok rfl rfl, Proc.run_call_bind_ok rfl rfl, Proc.run_call_bind_ok rfl rfl,
      Proc.run_call_bind_ok rfl rfl]
    split
    · rename_i error' _
      obtain ⟨hrow, hendpoints⟩ := deliveryFailed_last h.last (r.attempt st.now) error' _
      rw [show (r.attempt st.now).id = job.deliveryId from hid] at hrow
      refine ⟨_, hrow, rfl, rfl, rfl, rfl, endpoint, ?_, hlive⟩
      rw [hendpoints]
      exact hendpoint
    · rename_i status hstatus
      have hboth := hstatus.symm.trans hanswer
      cases hboth

/-- The delivery after its last attempt. -/
def afterLast (st : WebhookDb) (job : Job) (made : ℕ) : Trail :=
  let st' := ((deliver config sign job made).run exec noFault st).2
  ⟨st', (ownEvents job.deliveryId st'.log).length⟩

/-- **The schedule.** After its last attempt a delivery becomes due and is
retried on schedule exactly when a manual retry has set `nextRetryAt` before,
no run takes it with its retries used up, and none of its first two retries
fails while another one is left. -/
theorem retry_schedule_iff (h : LastAttempt config st job made r) (ops : List RetryOp) :
    ((∃ r' t, (afterLast config sign st job made).st.delivery job.deliveryId = some r' ∧
        r'.Due t) ∧
      (afterLast config sign st job made).Along sign job.deliveryId
        (OnSchedule sign job.deliveryId r.maxRetries) ops) ↔
    r.nextRetryAt ≠ none ∧
      (afterLast config sign st job made).Along sign job.deliveryId
        (Unharmed job.deliveryId) ops := by
  obtain ⟨r', hrow, hstatus, hnext, hcount, hretries, hactive⟩ := h.deliver config sign
  have hempty : ∀ e, ((ownEvents job.deliveryId (afterLast config sign st job made).st.log).drop
      (afterLast config sign st job made).since).count e = 0 := by
    intro e
    rw [show (afterLast config sign st job made).since = (ownEvents job.deliveryId
      (afterLast config sign st job made).st.log).length from rfl, List.drop_length, List.count_nil]
  have htracked : Tracked job.deliveryId r.maxRetries (afterLast config sign st job made) r' := by
    refine ⟨hrow, hactive, hretries, le_rfl, ?_, ?_, fun _ => hempty _⟩
    · rw [hcount, h.fresh]
      exact hempty _
    · rw [hcount, h.fresh]
      exact Nat.zero_le _
  refine and_congr ⟨?_, fun hset => ?_⟩ (htracked.along_iff ops)
  · rintro ⟨r'', t, hrow'', -, u, hu, -⟩ hnone
    obtain rfl := Option.some.inj (hrow.symm.trans hrow'')
    rw [hnext, hnone] at hu
    cases hu
  · obtain ⟨t, ht⟩ := Option.ne_none_iff_exists'.mp hset
    exact ⟨r', t, hrow, hstatus, t, by rw [hnext, ht]; rfl, le_rfl⟩

end LastAttempt

/-- One delivery, before its fifth attempt. -/
def fourTimes (nextRetryAt : Option Time) : WebhookDb where
  deliveries := ⟨[{ createDelivery (0, 0) 0 "payout" "\x7b\x7d" with nextRetryAt := nextRetryAt }],
    List.nodup_singleton _⟩
  endpoints := [⟨0, "", "", ["payout"], true⟩]
  jobs := [⟨(0, 0), 0, 5⟩]
  taken := [(0, 0)]
  net := fun k => ⟨if k = 0 then .error ⟨some "timeout of 10000ms exceeded", none⟩ else .ok 200, 0⟩
  served := 0
  now := 60000
  log := []

theorem fourTimes_last (nextRetryAt : Option Time) :
    LastAttempt {} (fourTimes nextRetryAt) ⟨(0, 0), 0, 5⟩ 4
      { createDelivery (0, 0) 0 "payout" "\x7b\x7d" with nextRetryAt := nextRetryAt } where
  row := rfl
  fresh := rfl
  active := ⟨⟨0, "", "", ["payout"], true⟩, rfl, rfl⟩
  window := show ¬ (0 + 24 * 3600000 : ℕ) < 60000 by decide
  last := by decide
  refused := trivial

/-- A manual retry came before the last attempt; the first retry succeeds. -/
theorem retry_schedule_manual : (∃ r' t,
      (afterLast {} (fun _ _ => "") (fourTimes (some 50000)) ⟨(0, 0), 0, 5⟩ 4).st.delivery (0, 0) =
        some r' ∧ r'.Due t) ∧
    (afterLast {} (fun _ _ => "") (fourTimes (some 50000)) ⟨(0, 0), 0, 5⟩ 4).Along (fun _ _ => "")
      (0, 0) (OnSchedule (fun _ _ => "") (0, 0) 3) [.run, .tick 60000, .run] :=
  (retry_schedule_iff {} (fun _ _ => "") (fourTimes_last (some 50000))
    [.run, .tick 60000, .run]).mpr ⟨by decide, by decide +kernel⟩

/-- Without one, the delivery is never due. -/
theorem retry_never_due : ¬ ∃ r' t,
    (afterLast {} (fun _ _ => "") (fourTimes none) ⟨(0, 0), 0, 5⟩ 4).st.delivery (0, 0) = some r' ∧
      r'.Due t := by
  obtain ⟨r', hrow, -, hnext, -⟩ := (fourTimes_last none).deliver {} fun _ _ => ""
  rintro ⟨r'', t, hrow'', -, u, hu, -⟩
  obtain rfl := Option.some.inj (hrow.symm.trans hrow'')
  rw [hnext] at hu
  cases hu

end Webhooks

end NexaFx
