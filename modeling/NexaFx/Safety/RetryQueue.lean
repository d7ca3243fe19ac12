import NexaFx.Lib.Backlog
import NexaFx.Safety.RetryRuns

/-!
# NexaFx — the queue of the retry job

A run of the retry job takes the fifty due deliveries that were updated longest
ago. The job updates what it retries and what is used up, but not a delivery
that it skips because its endpoint is inactive or deleted; such a row keeps its
place, and fifty of them keep out all that come after them.

* `round_run` — what a run does to each row, while the clock stands still.
* `Blocks` — the rows that stay before a delivery whatever the job does.

Main result: `queue_not_starved_iff`.
-/

namespace NexaFx

open Async Proc Backlog

namespace Webhooks

-- ---------------------------------------------------------------------------
-- What a run does to a row
-- ---------------------------------------------------------------------------

def WebhookDelivery.Due (delivery : WebhookDelivery) (now : Time) : Prop :=
  delivery.status = .failed ∧ ∃ t ∈ delivery.nextRetryAt, t ≤ now

instance (delivery : WebhookDelivery) (now : Time) : Decidable (delivery.Due now) :=
  inferInstanceAs (Decidable (_ ∧ _))

/-- The endpoint of the delivery is there and active. -/
def Active (endpoints : List WebhookEndpoint) (delivery : WebhookDelivery) : Prop :=
  ∃ endpoint ∈ Table.get WebhookEndpoint.id endpoints delivery.endpointId,
    endpoint.isActive = true

instance (endpoints : List WebhookEndpoint) (delivery : WebhookDelivery) :
    Decidable (Active endpoints delivery) := inferInstanceAs (Decidable (∃ _ ∈ _, _))

/-- The delivery has retries left. -/
def WebhookDelivery.Open (delivery : WebhookDelivery) : Prop :=
  delivery.retryCount < delivery.maxRetries

instance (delivery : WebhookDelivery) : Decidable delivery.Open :=
  inferInstanceAs (Decidable (_ < _))

/-- When a failed retry at `now` is followed by another one. -/
def WebhookDelivery.retryAt (delivery : WebhookDelivery) (now : Time) : Option Time :=
  if delivery.retryCount + 1 < delivery.maxRetries
    then some (now + backoffMs (delivery.retryCount + 1)) else none

/-- What a run at `now` makes of a due row. -/
inductive Retried (endpoints : List WebhookEndpoint) (net : ℕ → Answer Thrown) (now : Time)
    (delivery : WebhookDelivery) : WebhookDelivery → Prop where
  | skipped (hopen : delivery.Open) (hactive : ¬ Active endpoints delivery) :
    Retried endpoints net now delivery delivery
  | exhausted (hused : ¬ delivery.Open) :
    Retried endpoints net now delivery ((exhausted.apply delivery).touch now)
  | delivered (hopen : delivery.Open) (hactive : Active endpoints delivery) {k status : ℕ}
      (hanswer : (net k).result = .ok status) :
    Retried endpoints net now delivery
      (((delivery.succeeded status now).apply delivery).touch now)
  | failed (hopen : delivery.Open) (hactive : Active endpoints delivery) (error : Thrown) :
    Retried endpoints net now delivery
      (((delivery.retried error (delivery.retryAt now)).apply delivery).touch now)

/-- The deliveries `due` are retried; the others are left alone. -/
structure Round (due : List WebhookDelivery) (st st' : WebhookDb) : Prop where
  endpoints : st'.endpoints = st.endpoints
  net : st'.net = st.net
  now : st'.now = st.now
  rows : ∃ f : WebhookDelivery → WebhookDelivery, st'.deliveries.rows = st.deliveries.rows.map f ∧
    (∀ r, (f r).id = r.id) ∧ (∀ r, r.id ∉ due.map WebhookDelivery.id → f r = r) ∧
    ∀ r ∈ due, Retried st.endpoints st.net st.now r (f r)
  log : ∃ events, st'.log = st.log ++ events ∧
    (∀ e ∈ events, e.delivery ∈ due.map WebhookDelivery.id) ∧
    ∀ r ∈ due, r.Open → Active st.endpoints r → PostEvent.sent r.id ∈ events

section Round

variable {st st' : WebhookDb} {delivery : WebhookDelivery}

theorem Retried.id_eq {endpoints : List WebhookEndpoint} {net : ℕ → Answer Thrown} {now : Time}
    {r : WebhookDelivery} (h : Retried endpoints net now delivery r) : r.id = delivery.id := by
  cases h <;> rfl

/-- The row is written over. -/
theorem rows_put (hrow : st.delivery delivery.id = some delivery) {r : WebhookDelivery}
    (hid : r.id = delivery.id) :
    (st.put r).deliveries.rows =
      st.deliveries.rows.map fun x => if x.id = delivery.id then r else x := by
  rw [← hid] at hrow ⊢
  exact Table.put_eq_map WebhookDelivery.id st.deliveries.ids hrow

/-- One row is written and `events` are noted. -/
theorem round_of_row (st' : WebhookDb) {r : WebhookDelivery} {events : List PostEvent}
    (hrow : st.delivery delivery.id = some delivery) (hendpoints : st'.endpoints = st.endpoints)
    (hnet : st'.net = st.net) (hnow : st'.now = st.now)
    (hrows : st'.deliveries.rows =
      st.deliveries.rows.map fun x => if x.id = delivery.id then r else x)
    (hretried : Retried st.endpoints st.net st.now delivery r)
    (hlog : st'.log = st.log ++ events) (hothers : ∀ e ∈ events, e.delivery = delivery.id)
    (hsent : delivery.Open → Active st.endpoints delivery → PostEvent.sent delivery.id ∈ events) :
    Round [delivery] st st' where
  endpoints := hendpoints
  net := hnet
  now := hnow
  rows := by
    refine ⟨_, hrows, ?_, ?_, ?_⟩
    · intro x
      split
      · rename_i hx
        rw [hretried.id_eq, hx]
      · rfl
    · intro x hx
      exact if_neg fun heq => hx (List.mem_singleton.mpr heq)
    · intro x hx
      obtain rfl := List.mem_singleton.mp hx
      simp only [if_true]
      exact hretried
  log := by
    refine ⟨events, hlog, fun e he => List.mem_singleton.mpr (hothers e he), ?_⟩
    intro x hx
    obtain rfl := List.mem_singleton.mp hx
    exact hsent

/-- A patched row, noted. -/
theorem round_update (st' : WebhookDb) {patch : DeliveryPatch} {events : List PostEvent}
    (hrow : st.delivery delivery.id = some delivery)
    (hretried : Retried st.endpoints st.net st.now delivery ((patch.apply delivery).touch st.now))
    (hendpoints : st'.endpoints = st.endpoints) (hnet : st'.net = st.net)
    (hnow : st'.now = st.now) (hrows : st'.deliveries = st.deliveries)
    (hlog : st'.log = st.log ++ events) (hothers : ∀ e ∈ events, e.delivery = delivery.id)
    (hsent : delivery.Open → Active st.endpoints delivery → PostEvent.sent delivery.id ∈ events) :
    Round [delivery] st (st'.update delivery.id patch) := by
  have hrow' : st'.delivery delivery.id = some delivery := by
    unfold WebhookDb.delivery
    rw [hrows]
    exact hrow
  have hupdate : st'.update delivery.id patch =
      (st'.put ((patch.apply delivery).touch st'.now)).note delivery.id patch.status := by
    unfold WebhookDb.update
    rw [hrow']
  rw [hupdate, hnow]
  have hlog' : ((st'.put ((patch.apply delivery).touch st.now)).note delivery.id
      patch.status).log = st.log ++ (events ++
        if patch.status = some .delivered then [.stored delivery.id] else []) := by
    rw [← List.append_assoc, ← hlog]
    rfl
  apply round_of_row ((st'.put ((patch.apply delivery).touch st.now)).note delivery.id
    patch.status) hrow hendpoints hnet hnow _ hretried hlog'
  · intro e he
    rcases List.mem_append.mp he with he | he
    · exact hothers e he
    · split at he
      · obtain rfl := List.mem_singleton.mp he
        rfl
      · cases he
  · intro hopen hactive
    exact List.mem_append_left _ (hsent hopen hactive)
  · show (st'.put _).deliveries.rows = _
    rw [rows_put hrow' (r := (patch.apply delivery).touch st.now) rfl, hrows]

/-- The request has been sent and answered. -/
def WebhookDb.answered (st : WebhookDb) (id : DeliveryId) : WebhookDb :=
  WebhookDb.serve { st with log := st.log ++ [.sent id] } id

/-- One retry. -/
theorem round_retryStep (hrow : st.delivery delivery.id = some delivery)
    (hlatency : ∀ k, (st.net k).latency = 0) : Round [delivery] st (retryStep st delivery) := by
  have hskip : delivery.Open → ¬ Active st.endpoints delivery → Round [delivery] st st := by
    intro hopen hactive
    apply round_of_row st (r := delivery) hrow rfl rfl rfl _ (.skipped hopen hactive)
      (List.append_nil _).symm (fun _ he => absurd he List.not_mem_nil)
      (fun _ h => absurd h hactive)
    symm
    rw [List.map_congr_left (g := id), List.map_id]
    intro x hx
    split
    · rename_i hid
      have hget := delivery_of_mem hx
      rw [hid, hrow, Option.some.injEq] at hget
      exact hget
    · rfl
  unfold retryStep
  split
  · rename_i hused
    exact round_update st hrow (.exhausted (not_lt.mpr hused)) rfl rfl rfl rfl
      (List.append_nil _).symm (fun _ he => absurd he List.not_mem_nil)
      (fun hopen => absurd hopen (not_lt.mpr hused))
  · rename_i hopen
    have hopen : delivery.Open := not_le.mp hopen
    cases hendpoint : st.endpoint delivery.endpointId with
    | none =>
      apply hskip hopen
      rintro ⟨endpoint, hmem, -⟩
      have hnone : none = some endpoint := hendpoint.symm.trans hmem
      cases hnone
    | some endpoint =>
      dsimp only
      split
      · rename_i hinactive
        apply hskip hopen
        rintro ⟨endpoint', hmem, hactive⟩
        have hsame : some endpoint = some endpoint' := hendpoint.symm.trans hmem
        cases hsame
        rw [hinactive] at hactive
        cases hactive
      · rename_i hactive
        have hactive : Active st.endpoints delivery :=
          ⟨endpoint, hendpoint, by simpa using hactive⟩
        have hnow : (st.answered delivery.id).now = st.now := by
          show st.now + (st.net st.served).latency = st.now
          rw [hlatency, Nat.add_zero]
        cases hanswer : (st.net st.served).result with
        | error error =>
          have hlog : (st.answered delivery.id).log = st.log ++ [.sent delivery.id] := by
            simp [WebhookDb.answered, WebhookDb.serve, hanswer]
          show Round [delivery] st ((st.answered delivery.id).update delivery.id
            (delivery.retried error (delivery.retryAt (st.answered delivery.id).now)))
          rw [hnow]
          apply round_update (st.answered delivery.id) hrow (.failed hopen hactive error) rfl rfl hnow rfl hlog
          · intro e he
            rw [List.mem_singleton.mp he]
            rfl
          · exact fun _ _ => List.mem_singleton_self _
        | ok status =>
          have hlog : (st.answered delivery.id).log =
              st.log ++ [.sent delivery.id, .answered delivery.id] := by
            simp [WebhookDb.answered, WebhookDb.serve, hanswer]
          show Round [delivery] st ((st.answered delivery.id).update delivery.id
            (delivery.succeeded status (st.answered delivery.id).now))
          rw [hnow]
          apply round_update (st.answered delivery.id) hrow (.delivered hopen hactive hanswer) rfl rfl hnow rfl hlog
          · intro e he
            simp only [List.mem_cons, List.not_mem_nil, or_false] at he
            obtain rfl | rfl := he
            · rfl
            · rfl
          · exact fun _ _ => List.mem_cons_self ..

variable {due : List WebhookDelivery}

/-- A row that is not due stays. -/
theorem Round.delivery_eq (h : Round due st st') (hrow : st.delivery delivery.id = some delivery)
    (hdue : delivery.id ∉ due.map WebhookDelivery.id) :
    st'.delivery delivery.id = some delivery := by
  obtain ⟨f, hrows, -, hkept, -⟩ := h.rows
  apply delivery_of_mem
  rw [hrows, ← hkept delivery hdue]
  exact List.mem_map_of_mem (Table.mem_of_get _ hrow)

/-- Nothing is due. -/
theorem Round.nil (st : WebhookDb) : Round [] st st where
  endpoints := rfl
  net := rfl
  now := rfl
  rows := ⟨id, (List.map_id _).symm, fun _ => rfl, fun _ _ => rfl,
    fun _ hr => absurd hr List.not_mem_nil⟩
  log := ⟨[], (List.append_nil _).symm, fun _ he => absurd he List.not_mem_nil,
    fun _ hr => absurd hr List.not_mem_nil⟩

/-- One delivery and then the others. -/
theorem Round.cons {st₁ : WebhookDb} (hone : Round [delivery] st st₁) (hrest : Round due st₁ st')
    (hnew : delivery.id ∉ due.map WebhookDelivery.id) : Round (delivery :: due) st st' where
  endpoints := hrest.endpoints.trans hone.endpoints
  net := hrest.net.trans hone.net
  now := hrest.now.trans hone.now
  rows := by
    obtain ⟨f, hf, hid, hkept, hretried⟩ := hone.rows
    obtain ⟨g, hg, hid', hkept', hretried'⟩ := hrest.rows
    rw [hone.endpoints, hone.net, hone.now] at hretried'
    refine ⟨g ∘ f, ?_, ?_, ?_, ?_⟩
    · rw [hg, hf, List.map_map]
    · intro r
      exact (hid' (f r)).trans (hid r)
    · intro r hr
      rw [List.map_cons, List.mem_cons, not_or] at hr
      show g (f r) = r
      rw [hkept r (by simpa using hr.1), hkept' r hr.2]
    · intro r hr
      show Retried _ _ _ r (g (f r))
      rcases List.mem_cons.mp hr with rfl | hr
      · rw [hkept' _ (by rw [hid]; exact hnew)]
        exact hretried r (List.mem_singleton_self _)
      · have hne : r.id ≠ delivery.id := fun heq => hnew (heq ▸ List.mem_map_of_mem hr)
        rw [hkept r (by simpa using hne)]
        exact hretried' r hr
  log := by
    obtain ⟨events, hlog, hids, hsent⟩ := hone.log
    obtain ⟨events', hlog', hids', hsent'⟩ := hrest.log
    rw [hone.endpoints] at hsent'
    refine ⟨events ++ events', ?_, ?_, ?_⟩
    · rw [hlog', hlog, List.append_assoc]
    · intro e he
      rw [List.map_cons]
      rcases List.mem_append.mp he with he | he
      · exact List.mem_cons.mpr (.inl (List.mem_singleton.mp (hids e he)))
      · exact List.mem_cons_of_mem _ (hids' e he)
    · intro r hr hopen hactive
      rcases List.mem_cons.mp hr with rfl | hr
      · exact List.mem_append_left _ (hsent r (List.mem_singleton_self _) hopen hactive)
      · exact List.mem_append_right _ (hsent' r hr hopen hactive)

/-- Deliveries that the table has, one after the other. -/
theorem round_foldl (hnodup : (due.map WebhookDelivery.id).Nodup)
    (hrows : ∀ r ∈ due, st.delivery r.id = some r) (hlatency : ∀ k, (st.net k).latency = 0) :
    Round due st (due.foldl retryStep st) := by
  induction due generalizing st with
  | nil => exact .nil st
  | cons r due ih =>
    obtain ⟨hnew, hnodup⟩ := List.nodup_cons.mp hnodup
    have hone := round_retryStep (hrows r (List.mem_cons_self ..)) hlatency
    apply hone.cons _ hnew
    apply ih hnodup
    · intro x hx
      apply hone.delivery_eq (hrows x (List.mem_cons_of_mem _ hx))
      have hne : x.id ≠ r.id := fun heq => hnew (heq ▸ List.mem_map_of_mem hx)
      simpa using hne
    · rw [hone.net]
      exact hlatency

/-- **One run.** -/
theorem round_run (sign : String → Body → String) (hlatency : ∀ k, (st.net k).latency = 0) :
    Round st.findDue st ((retryFailedDeliveries sign).run exec noFault st).2 := by
  rw [retryFailedDeliveries_run]
  exact round_foldl (nodup_findDue st) (fun r hr => (mem_findDue hr).1) hlatency

end Round

theorem backoffMs_pos (retryCount : ℕ) : 0 < backoffMs retryCount := by
  unfold backoffMs EXPONENTIAL_BACKOFF_MS
  have hle : min retryCount 2 = 0 ∨ min retryCount 2 = 1 ∨ min retryCount 2 = 2 := by omega
  rcases hle with h | h | h <;> simp [h]

-- ---------------------------------------------------------------------------
-- What comes before a delivery
-- ---------------------------------------------------------------------------

/-- A row with the key `t` comes before one with the key `u`; with equal keys,
when it is the earlier one in the table. -/
def Before (early : Bool) (u t : Time) : Prop :=
  if early = true then t ≤ u else t < u

instance (early : Bool) (u t : Time) : Decidable (Before early u t) :=
  inferInstanceAs (Decidable (if early = true then t ≤ u else t < u))

section Queue

variable (endpoints : List WebhookEndpoint) (now u : Time) (early : Bool)

/-- The row is due and comes before one that was updated at `u`. -/
def Ahead (r : WebhookDelivery) : Prop := r.Due now ∧ Before early u r.updatedAt

instance (r : WebhookDelivery) : Decidable (Ahead now u early r) :=
  inferInstanceAs (Decidable (_ ∧ _))

/-- The row stays before one that was updated at `u`, unless its last retry
succeeds: the job skips it, or writes it as of `now`, which is before `u` too. -/
def Blocks (r : WebhookDelivery) : Prop :=
  Ahead now u early r ∧ ((r.Open ∧ ¬ Active endpoints r) ∨
    (r.maxRetries ≤ r.retryCount + 1 ∧ Before early u now))

instance (r : WebhookDelivery) : Decidable (Blocks endpoints now u early r) :=
  inferInstanceAs (Decidable (_ ∧ (_ ∨ _)))

/-- The rows that stay before a delivery with the rows `pre` before it and
`post` behind it in the table. -/
def blocking (pre post : List WebhookDelivery) : ℕ :=
  pre.countP (fun r => decide (Blocks endpoints now u true r)) +
    post.countP (fun r => decide (Blocks endpoints now u false r))

variable {endpoints now u early} {net : ℕ → Answer Thrown} {r r' : WebhookDelivery}

/-- A row that is taken and stays ahead is one that blocks. -/
theorem Retried.blocks (h : Retried endpoints net now r r') (hahead : Ahead now u early r)
    (hahead' : Ahead now u early r') :
    Blocks endpoints now u early r ∧ Blocks endpoints now u early r' := by
  cases h with
  | skipped hopen hactive =>
    have hblocks : Blocks endpoints now u early r := ⟨hahead, .inl ⟨hopen, hactive⟩⟩
    exact ⟨hblocks, hblocks⟩
  | exhausted hused =>
    have hle : r.maxRetries ≤ r.retryCount + 1 := by
      have := not_lt.mp hused
      omega
    exact ⟨⟨hahead, .inr ⟨hle, hahead'.2⟩⟩, ⟨hahead', .inr ⟨hle, hahead'.2⟩⟩⟩
  | delivered hopen hactive hanswer =>
    have hstatus : WebhookDeliveryStatus.delivered = .failed := hahead'.1.1
    cases hstatus
  | failed hopen hactive error =>
    have hle : r.maxRetries ≤ r.retryCount + 1 := by
      by_contra hmore
      obtain ⟨t, hnext, hdue⟩ := hahead'.1.2
      have hretry : r.retryAt now = some (now + backoffMs (r.retryCount + 1)) :=
        if_pos (not_le.mp hmore)
      have ht : some (now + backoffMs (r.retryCount + 1)) = some t := by
        rw [← hnext]
        simp [WebhookDelivery.retried, DeliveryPatch.apply, WebhookDelivery.touch, hretry]
      have hpos : 0 < backoffMs (r.retryCount + 1) := backoffMs_pos _
      cases ht
      exact absurd hdue (not_le.mpr (Nat.lt_add_of_pos_right hpos))
    exact ⟨⟨hahead, .inr ⟨hle, hahead'.2⟩⟩, ⟨hahead', .inr ⟨Nat.le_succ_of_le hle, hahead'.2⟩⟩⟩

/-- Without a success, what blocks goes on blocking. -/
theorem Retried.blocks_of_refused (hnet : ∀ k, ∃ error, (net k).result = .error error)
    (h : Retried endpoints net now r r') (hblocks : Blocks endpoints now u early r) :
    Blocks endpoints now u early r' := by
  obtain ⟨⟨⟨hstatus, hnext⟩, hbefore⟩, hwhy⟩ := hblocks
  cases h with
  | skipped hopen hactive => exact ⟨⟨⟨hstatus, hnext⟩, hbefore⟩, hwhy⟩
  | exhausted hused =>
    rcases hwhy with ⟨hopen, -⟩ | ⟨hle, hnow⟩
    · exact absurd hopen hused
    · exact ⟨⟨⟨rfl, hnext⟩, hnow⟩, .inr ⟨hle, hnow⟩⟩
  | @delivered hopen hactive k status hanswer =>
    obtain ⟨error, herror⟩ := hnet k
    rw [herror] at hanswer
    cases hanswer
  | failed hopen hactive error =>
    rcases hwhy with ⟨-, hinactive⟩ | ⟨hle, hnow⟩
    · exact absurd hactive hinactive
    · have hlast : r.retryAt now = none := if_neg (not_lt.mpr hle)
      refine ⟨⟨⟨rfl, ?_⟩, hnow⟩, .inr ⟨Nat.le_succ_of_le hle, hnow⟩⟩
      rw [hlast]
      exact hnext

end Queue

-- ---------------------------------------------------------------------------
-- One run of the queue
-- ---------------------------------------------------------------------------

section Split

variable {st : WebhookDb} {delivery r : WebhookDelivery} {pre post : List WebhookDelivery}

theorem notMem_of_rows (hrows : st.deliveries.rows = pre ++ delivery :: post) :
    delivery ∉ pre ∧ delivery ∉ post := by
  have hnodup := st.deliveries.ids
  rw [hrows, List.map_append, List.map_cons, List.nodup_append] at hnodup
  obtain ⟨-, hpost, hpre⟩ := hnodup
  constructor
  · intro hmem
    exact hpre _ (List.mem_map_of_mem hmem) _ (List.mem_cons_self ..) rfl
  · intro hmem
    exact (List.nodup_cons.mp hpost).1 (List.mem_map_of_mem hmem)

/-- The rows before a delivery in the order of the run. -/
theorem findDue_split (hrows : st.deliveries.rows = pre ++ delivery :: post)
    (hdue : delivery.Due st.now) : ∃ front back,
      st.findDue = (front ++ delivery :: back).take 50 ∧ delivery ∉ front ∧
      front.Perm ((pre.filter fun r => decide (Ahead st.now delivery.updatedAt true r)) ++
        post.filter fun r => decide (Ahead st.now delivery.updatedAt false r)) := by
  obtain ⟨front, back, hsort, hperm⟩ := sort_split WebhookDelivery.updatedAt
    (pre.filter fun r => decide (r.Due st.now)) delivery (post.filter fun r => decide (r.Due st.now))
  obtain ⟨hpre, hpost⟩ := notMem_of_rows hrows
  refine ⟨front, back, ?_, ?_, ?_⟩
  · rw [← hsort]
    show (List.insertionSort _ (st.deliveries.rows.filter fun r => decide (r.Due st.now))).take 50 = _
    rw [hrows, List.filter_append, List.filter_cons_of_pos (by simpa using hdue)]
  · rw [hperm.mem_iff, List.mem_append, not_or]
    constructor
    · exact fun h => hpre (List.mem_of_mem_filter (List.mem_of_mem_filter h))
    · exact fun h => hpost (List.mem_of_mem_filter (List.mem_of_mem_filter h))
  · rw [List.filter_filter, List.filter_filter] at hperm
    refine hperm.trans (.of_eq ?_)
    congr 1
    · apply List.filter_congr
      intro x _
      simp [Ahead, Before, Bool.and_comm]
    · apply List.filter_congr
      intro x _
      simp [Ahead, Before, Bool.and_comm]

/-- A delivery is taken when fewer than fifty are ahead. -/
theorem mem_findDue_iff (hrows : st.deliveries.rows = pre ++ delivery :: post)
    (hdue : delivery.Due st.now) : delivery ∈ st.findDue ↔
      pre.countP (fun r => decide (Ahead st.now delivery.updatedAt true r)) +
        post.countP (fun r => decide (Ahead st.now delivery.updatedAt false r)) < 50 := by
  obtain ⟨front, back, hfound, hfront, hperm⟩ := findDue_split hrows hdue
  rw [hfound, mem_take_iff hfront, hperm.length_eq, List.length_append,
    List.countP_eq_length_filter, List.countP_eq_length_filter]

/-- What is taken instead of a delivery. -/
theorem ahead_of_findDue (hrows : st.deliveries.rows = pre ++ delivery :: post)
    (hdue : delivery.Due st.now) (hnot : delivery ∉ st.findDue) :
    st.findDue.length = 50 ∧ ∀ r ∈ st.findDue,
      (r ∈ pre ∧ Ahead st.now delivery.updatedAt true r) ∨
        (r ∈ post ∧ Ahead st.now delivery.updatedAt false r) := by
  obtain ⟨front, back, hfound, hfront, hperm⟩ := findDue_split hrows hdue
  rw [hfound, mem_take_iff hfront, not_lt] at hnot
  rw [List.take_append_of_le_length hnot] at hfound
  rw [hfound]
  constructor
  · rw [List.length_take]
    omega
  · intro r hr
    have hmem := hperm.mem_iff.mp (List.mem_of_mem_take hr)
    rw [List.mem_append, List.mem_filter, List.mem_filter, decide_eq_true_eq,
      decide_eq_true_eq] at hmem
    exact hmem

/-- What a run does to the rows of the table. -/
theorem Round.rows_eq {st' : WebhookDb} (h : Round st.findDue st st') :
    ∃ f, st'.deliveries.rows = st.deliveries.rows.map f ∧ ∀ r ∈ st.deliveries.rows,
      (r ∈ st.findDue ∧ Retried st.endpoints st.net st.now r (f r)) ∨
        (r ∉ st.findDue ∧ f r = r) := by
  obtain ⟨f, hf, -, hkept, hretried⟩ := h.rows
  refine ⟨f, hf, fun r hr => ?_⟩
  by_cases hdue : r ∈ st.findDue
  · exact .inl ⟨hdue, hretried r hdue⟩
  · refine .inr ⟨hdue, hkept r fun hid => ?_⟩
    obtain ⟨x, hx, hxid⟩ := List.mem_map.mp hid
    have hfound := (mem_findDue hx).1
    rw [hxid, delivery_of_mem hr, Option.some.injEq] at hfound
    exact hdue (hfound ▸ hx)

end Split

/-- The delivery stands in the table between the rows `pre` and `post`. -/
structure Standing (endpoints : List WebhookEndpoint) (net : ℕ → Answer Thrown) (now : Time)
    (delivery : WebhookDelivery) (pre post : List WebhookDelivery) (st : WebhookDb) : Prop where
  endpoints : st.endpoints = endpoints
  net : st.net = net
  now : st.now = now
  rows : st.deliveries.rows = pre ++ delivery :: post

section Standing

variable {endpoints : List WebhookEndpoint} {net : ℕ → Answer Thrown} {now : Time}
  {delivery : WebhookDelivery} {pre post : List WebhookDelivery} {st st' : WebhookDb}

/-- A run that does not take the delivery: what it takes is ahead of it. -/
theorem Standing.round (h : Standing endpoints net now delivery pre post st)
    (hround : Round st.findDue st st') (hdue : delivery.Due now) (hnot : delivery ∉ st.findDue) :
    ∃ f, Standing endpoints net now delivery (pre.map f) (post.map f) st' ∧
      (∀ r ∈ pre, (r ∈ st.findDue ∧ Ahead now delivery.updatedAt true r ∧
        Retried endpoints net now r (f r)) ∨ (r ∉ st.findDue ∧ f r = r)) ∧
      ∀ r ∈ post, (r ∈ st.findDue ∧ Ahead now delivery.updatedAt false r ∧
        Retried endpoints net now r (f r)) ∨ (r ∉ st.findDue ∧ f r = r) := by
  obtain ⟨rfl, rfl, rfl, hrows⟩ := h
  obtain ⟨f, hf, hcases⟩ := hround.rows_eq
  obtain ⟨-, hahead⟩ := ahead_of_findDue hrows hdue hnot
  have hdisjoint : ∀ r ∈ pre, r ∉ post := by
    intro r hpre hpost
    have hnodup := st.deliveries.ids.of_map
    rw [hrows, List.nodup_append] at hnodup
    exact hnodup.2.2 r hpre r (List.mem_cons_of_mem _ hpost) rfl
  rw [hrows] at hf hcases
  have hself : f delivery = delivery := by
    rcases hcases delivery (by simp) with ⟨hmem, -⟩ | ⟨-, heq⟩
    · exact absurd hmem hnot
    · exact heq
  refine ⟨f, ⟨hround.endpoints, hround.net, hround.now, ?_⟩, ?_, ?_⟩
  · rw [hf, List.map_append, List.map_cons, hself]
  · intro r hr
    refine (hcases r (List.mem_append_left _ hr)).imp_left fun ⟨hmem, hretried⟩ => ?_
    rcases hahead r hmem with ⟨-, hr'⟩ | ⟨hpost, -⟩
    · exact ⟨hmem, hr', hretried⟩
    · exact absurd hpost (hdisjoint r hr)
  · intro r hr
    refine (hcases r (List.mem_append_right _ (List.mem_cons_of_mem _ hr))).imp_left
      fun ⟨hmem, hretried⟩ => ?_
    rcases hahead r hmem with ⟨hpre, -⟩ | ⟨-, hr'⟩
    · exact absurd hr (hdisjoint r hpre)
    · exact ⟨hmem, hr', hretried⟩

/-- The rows that are ahead now and will not be for ever. -/
def Passing (endpoints : List WebhookEndpoint) (now u : Time) (early : Bool)
    (r : WebhookDelivery) : Prop :=
  Ahead now u early r ∧ ¬ Blocks endpoints now u early r

instance (u : Time) (early : Bool) (r : WebhookDelivery) :
    Decidable (Passing endpoints now u early r) := inferInstanceAs (Decidable (_ ∧ _))

def passing (endpoints : List WebhookEndpoint) (now u : Time)
    (pre post : List WebhookDelivery) : ℕ :=
  pre.countP (fun r => decide (Passing endpoints now u true r)) +
    post.countP (fun r => decide (Passing endpoints now u false r))

section Row

variable {u : Time} {early : Bool} {due : List WebhookDelivery} {r : WebhookDelivery}
  {f : WebhookDelivery → WebhookDelivery}

theorem blocks_of_round (h : (r ∈ due ∧ Ahead now u early r ∧ Retried endpoints net now r (f r)) ∨
    (r ∉ due ∧ f r = r)) (hblocks : Blocks endpoints now u early (f r)) :
    Blocks endpoints now u early r := by
  rcases h with ⟨-, hahead, hretried⟩ | ⟨-, heq⟩
  · exact (hretried.blocks hahead hblocks.1).1
  · exact heq ▸ hblocks

theorem passing_of_round (h : (r ∈ due ∧ Ahead now u early r ∧ Retried endpoints net now r (f r)) ∨
    (r ∉ due ∧ f r = r)) (hpassing : Passing endpoints now u early (f r)) :
    r ∉ due ∧ Passing endpoints now u early r := by
  rcases h with ⟨-, hahead, hretried⟩ | ⟨hnot, heq⟩
  · exact absurd (hretried.blocks hahead hpassing.1).2 hpassing.2
  · exact ⟨hnot, heq ▸ hpassing⟩

theorem blocks_round (hnet : ∀ k, ∃ error, (net k).result = .error error)
    (h : (r ∈ due ∧ Ahead now u early r ∧ Retried endpoints net now r (f r)) ∨
    (r ∉ due ∧ f r = r)) (hblocks : Blocks endpoints now u early r) :
    Blocks endpoints now u early (f r) := by
  rcases h with ⟨-, -, hretried⟩ | ⟨-, heq⟩
  · exact hretried.blocks_of_refused hnet hblocks
  · exact heq.symm ▸ hblocks

end Row

/-- Fifty rows are taken, of which fewer block. -/
theorem Standing.exists_passing (h : Standing endpoints net now delivery pre post st)
    (hdue : delivery.Due now) (hnot : delivery ∉ st.findDue)
    (hfew : blocking endpoints now delivery.updatedAt pre post < 50) :
    ∃ r ∈ st.findDue, (r ∈ pre ∧ Passing endpoints now delivery.updatedAt true r) ∨
      (r ∈ post ∧ Passing endpoints now delivery.updatedAt false r) := by
  obtain ⟨rfl, rfl, rfl, hrows⟩ := h
  obtain ⟨hlength, hahead⟩ := ahead_of_findDue hrows hdue hnot
  by_contra hnone
  have hblocks : st.findDue ⊆
      (pre.filter fun r => decide (Blocks st.endpoints st.now delivery.updatedAt true r)) ++
        post.filter fun r => decide (Blocks st.endpoints st.now delivery.updatedAt false r) := by
    intro r hr
    rw [List.mem_append, List.mem_filter, List.mem_filter, decide_eq_true_eq, decide_eq_true_eq]
    refine (hahead r hr).imp (fun ⟨hmem, hr'⟩ => ⟨hmem, ?_⟩) (fun ⟨hmem, hr'⟩ => ⟨hmem, ?_⟩)
    · by_contra hpass
      exact hnone ⟨r, hr, .inl ⟨hmem, hr', hpass⟩⟩
    · by_contra hpass
      exact hnone ⟨r, hr, .inr ⟨hmem, hr', hpass⟩⟩
  have hle := (List.subperm_of_subset (nodup_findDue st).of_map hblocks).length_le
  rw [hlength, List.length_append, ← List.countP_eq_length_filter,
    ← List.countP_eq_length_filter] at hle
  exact absurd hfew (not_lt.mpr hle)

/-- **Progress.** A run that does not take the delivery takes a row that does
not come back before it. -/
theorem Standing.progress (h : Standing endpoints net now delivery pre post st)
    (hround : Round st.findDue st st') (hdue : delivery.Due now) (hnot : delivery ∉ st.findDue)
    (hfew : blocking endpoints now delivery.updatedAt pre post < 50) :
    ∃ pre' post', Standing endpoints net now delivery pre' post' st' ∧
      blocking endpoints now delivery.updatedAt pre' post' < 50 ∧
      passing endpoints now delivery.updatedAt pre' post' <
        passing endpoints now delivery.updatedAt pre post := by
  obtain ⟨f, hstanding, hpre, hpost⟩ := h.round hround hdue hnot
  refine ⟨pre.map f, post.map f, hstanding, lt_of_le_of_lt ?_ hfew, ?_⟩
  · apply Nat.add_le_add
    · apply countP_map_le
      intro r hr
      simpa using blocks_of_round (hpre r hr)
    · apply countP_map_le
      intro r hr
      simpa using blocks_of_round (hpost r hr)
  · have hpre' : ∀ r ∈ pre, Passing endpoints now delivery.updatedAt true (f r) →
        r ∉ st.findDue ∧ Passing endpoints now delivery.updatedAt true r :=
      fun r hr => passing_of_round (hpre r hr)
    have hpost' : ∀ r ∈ post, Passing endpoints now delivery.updatedAt false (f r) →
        r ∉ st.findDue ∧ Passing endpoints now delivery.updatedAt false r :=
      fun r hr => passing_of_round (hpost r hr)
    obtain ⟨r, htaken, ⟨hr, hpass⟩ | ⟨hr, hpass⟩⟩ := h.exists_passing hdue hnot hfew
    · apply Nat.add_lt_add_of_lt_of_le
      · apply countP_map_lt _ hr
        · simpa using hpass
        · simpa using fun hr' => (hpre' r hr hr').1 htaken
        · intro x hx
          simpa using fun hx' => (hpre' x hx hx').2
      · apply countP_map_le
        intro x hx
        simpa using fun hx' => (hpost' x hx hx').2
    · apply Nat.add_lt_add_of_le_of_lt
      · apply countP_map_le
        intro x hx
        simpa using fun hx' => (hpre' x hx hx').2
      · apply countP_map_lt _ hr
        · simpa using hpass
        · simpa using fun hr' => (hpost' r hr hr').1 htaken
        · intro x hx
          simpa using fun hx' => (hpost' x hx hx').2

/-- **Starvation.** When no retry succeeds, rows that block stay. -/
theorem Standing.starved (h : Standing endpoints net now delivery pre post st)
    (hround : Round st.findDue st st') (hnet : ∀ k, ∃ error, (net k).result = .error error)
    (hdue : delivery.Due now) (hnot : delivery ∉ st.findDue)
    (hmany : 50 ≤ blocking endpoints now delivery.updatedAt pre post) :
    ∃ pre' post', Standing endpoints net now delivery pre' post' st' ∧
      50 ≤ blocking endpoints now delivery.updatedAt pre' post' := by
  obtain ⟨f, hstanding, hpre, hpost⟩ := h.round hround hdue hnot
  refine ⟨pre.map f, post.map f, hstanding, le_trans hmany (Nat.add_le_add ?_ ?_)⟩
  · rw [List.countP_map]
    apply List.countP_mono_left
    intro r hr
    simpa using blocks_round hnet (hpre r hr)
  · rw [List.countP_map]
    apply List.countP_mono_left
    intro r hr
    simpa using blocks_round hnet (hpost r hr)

/-- What blocks is ahead. -/
theorem Standing.not_taken (h : Standing endpoints net now delivery pre post st)
    (hdue : delivery.Due now) (hmany : 50 ≤ blocking endpoints now delivery.updatedAt pre post) :
    delivery ∉ st.findDue := by
  obtain ⟨rfl, rfl, rfl, hrows⟩ := h
  rw [mem_findDue_iff hrows hdue, not_lt]
  apply le_trans hmany
  apply Nat.add_le_add
  · apply List.countP_mono_left
    intro r _
    simpa using fun h : Blocks _ _ _ _ r => h.1
  · apply List.countP_mono_left
    intro r _
    simpa using fun h : Blocks _ _ _ _ r => h.1

end Standing

-- ---------------------------------------------------------------------------
-- Run after run
-- ---------------------------------------------------------------------------

section Runs

variable (sign : String → Body → String)

/-- The state after one run of the job. -/
def runOnce (st : WebhookDb) : WebhookDb := ((retryFailedDeliveries sign).run exec noFault st).2

/-- FAILED, due, below `maxRetries` and with an active endpoint. -/
def Eligible (st : WebhookDb) (delivery : WebhookDelivery) : Prop :=
  delivery.Due st.now ∧ delivery.Open ∧ Active st.endpoints delivery

instance (st : WebhookDb) (delivery : WebhookDelivery) : Decidable (Eligible st delivery) :=
  inferInstanceAs (Decidable (_ ∧ _ ∧ _))

theorem Standing.round_runOnce {endpoints : List WebhookEndpoint} {net : ℕ → Answer Thrown}
    {now : Time} {delivery : WebhookDelivery} {pre post : List WebhookDelivery} {st : WebhookDb}
    (h : Standing endpoints net now delivery pre post st) (hlatency : ∀ k, (net k).latency = 0) :
    Round st.findDue st (runOnce sign st) := by
  apply round_run
  rw [h.net]
  exact hlatency

variable {sign} {st : WebhookDb} {delivery : WebhookDelivery}

theorem runOnce_log_subset (hlatency : ∀ k, (st.net k).latency = 0) :
    st.log ⊆ (runOnce sign st).log := by
  obtain ⟨events, hlog, -⟩ := (round_run sign hlatency).log
  show st.log ⊆ (runOnce sign st).log
  rw [show (runOnce sign st).log = st.log ++ events from hlog]
  exact List.subset_append_left _ _

/-- What has been sent stays in the log. -/
theorem sent_of_le (hlatency : ∀ k, (st.net k).latency = 0) {n m : ℕ} (hle : n ≤ m)
    {e : PostEvent} (h : e ∈ ((runOnce sign)^[n] st).log) : e ∈ ((runOnce sign)^[m] st).log := by
  have hnet : ∀ n, ((runOnce sign)^[n] st).net = st.net := by
    intro n
    induction n with
    | zero => rfl
    | succ n ih =>
      rw [Function.iterate_succ_apply', ← ih]
      exact (round_run sign (by rw [ih]; exact hlatency)).net
  induction m, hle using Nat.le_induction with
  | base => exact h
  | succ m _ ih =>
    rw [Function.iterate_succ_apply']
    exact runOnce_log_subset (by rw [hnet]; exact hlatency) ih

variable (sign st)

/-- Fewer than fifty rows block: the delivery is retried. -/
theorem exists_sent {pre post : List WebhookDelivery} (hlatency : ∀ k, (st.net k).latency = 0)
    (hrows : st.deliveries.rows = pre ++ delivery :: post) (h : Eligible st delivery)
    (hfew : blocking st.endpoints st.now delivery.updatedAt pre post < 50) :
    ∃ n, PostEvent.sent delivery.id ∈ ((runOnce sign)^[n] st).log := by
  obtain ⟨hdue, hopen, hactive⟩ := h
  obtain ⟨n, m, ⟨pre', post', hstanding, -⟩, htaken⟩ := exists_served (runOnce sign)
    (fun m st' => ∃ pre post,
      Standing st.endpoints st.net st.now delivery pre post st' ∧
      blocking st.endpoints st.now delivery.updatedAt pre post < 50 ∧
      passing st.endpoints st.now delivery.updatedAt pre post = m)
    (fun st' => delivery ∈ st'.findDue)
    (by
      rintro m st' ⟨pre, post, hstanding, hfew, rfl⟩ hnot
      have hround := hstanding.round_runOnce sign hlatency
      obtain ⟨pre', post', hstanding', hfew', hlt⟩ := hstanding.progress hround hdue hnot hfew
      exact ⟨_, hlt, pre', post', hstanding', hfew', rfl⟩)
    ⟨pre, post, ⟨rfl, rfl, rfl, hrows⟩, hfew, rfl⟩
  refine ⟨n + 1, ?_⟩
  rw [Function.iterate_succ_apply']
  have hround := hstanding.round_runOnce sign hlatency
  obtain ⟨events, hlog, -, hsent⟩ := hround.log
  rw [show (runOnce sign ((runOnce sign)^[n] st)).log = _ ++ events from hlog]
  apply List.mem_append_right
  apply hsent delivery htaken hopen
  rw [hstanding.endpoints]
  exact hactive

/-- Fifty rows block and no retry succeeds: the delivery is never retried. -/
theorem never_sent {pre post : List WebhookDelivery} (hlatency : ∀ k, (st.net k).latency = 0)
    (hnet : ∀ k, ∃ error, (st.net k).result = .error error)
    (hrows : st.deliveries.rows = pre ++ delivery :: post) (hdue : delivery.Due st.now)
    (hmany : 50 ≤ blocking st.endpoints st.now delivery.updatedAt pre post)
    (hlog : PostEvent.sent delivery.id ∉ st.log) (n : ℕ) :
    PostEvent.sent delivery.id ∉ ((runOnce sign)^[n] st).log := by
  have hinv : PostEvent.sent delivery.id ∉ ((runOnce sign)^[n] st).log ∧ ∃ pre post,
      Standing st.endpoints st.net st.now delivery pre post ((runOnce sign)^[n] st) ∧
      50 ≤ blocking st.endpoints st.now delivery.updatedAt pre post := by
    induction n with
    | zero => exact ⟨hlog, pre, post, ⟨rfl, rfl, rfl, hrows⟩, hmany⟩
    | succ n ih =>
      obtain ⟨hlog, pre, post, hstanding, hmany⟩ := ih
      rw [Function.iterate_succ_apply']
      have hround := hstanding.round_runOnce sign hlatency
      have hnot := hstanding.not_taken hdue hmany
      refine ⟨?_, hstanding.starved hround hnet hdue hnot hmany⟩
      obtain ⟨events, hevents, hids, -⟩ := hround.log
      rw [show (runOnce sign ((runOnce sign)^[n] st)).log = _ ++ events from hevents,
        List.mem_append, not_or]
      refine ⟨hlog, fun hmem => hnot ?_⟩
      obtain ⟨r, hr, hid⟩ := List.mem_map.mp (hids _ hmem)
      have hstored := (mem_findDue hr).1
      have hmem : delivery ∈ ((runOnce sign)^[n] st).deliveries.rows := by
        rw [hstanding.rows]
        simp
      rw [hid, show (PostEvent.sent delivery.id).delivery = delivery.id from rfl,
        delivery_of_mem hmem, Option.some.injEq] at hstored
      exact hstored ▸ hr
  exact hinv.1

/-- **Who is starved.** While the clock stands still, runs of the job reach all
deliveries that are to be retried, whatever the endpoints answer, if and only
if fewer than fifty rows block each of them. -/
theorem queue_not_starved_iff :
    (∀ net : ℕ → Answer Thrown, (∀ k, (net k).latency = 0) →
      ∃ n, ∀ delivery ∈ st.deliveries.rows, Eligible st delivery →
        PostEvent.sent delivery.id ∈
          ((runOnce sign)^[n] { st with net := net, log := [] }).log) ↔
    ∀ pre delivery post, st.deliveries.rows = pre ++ delivery :: post → Eligible st delivery →
      blocking st.endpoints st.now delivery.updatedAt pre post < 50 := by
  constructor
  · intro h pre delivery post hrows heligible
    by_contra hmany
    obtain ⟨n, hsent⟩ := h (fun _ => ⟨.error ⟨none, none⟩, 0⟩) fun _ => rfl
    have hmem : delivery ∈ st.deliveries.rows := by
      rw [hrows]
      simp
    have hnever := never_sent sign
      { st with net := fun _ => ⟨.error ⟨none, none⟩, 0⟩, log := [] }
      (fun _ => rfl) (fun _ => ⟨_, rfl⟩) hrows heligible.1 (not_lt.mp hmany) List.not_mem_nil n
    exact hnever (hsent delivery hmem heligible)
  · intro h net hlatency
    suffices hall : ∀ᶠ n in Filter.atTop, ∀ delivery ∈ {r | r ∈ st.deliveries.rows},
        Eligible st delivery → PostEvent.sent delivery.id ∈
          ((runOnce sign)^[n] { st with net := net, log := [] }).log from hall.exists
    rw [Filter.eventually_all_finite (List.finite_toSet st.deliveries.rows)]
    intro delivery hmem
    by_cases heligible : Eligible st delivery
    · obtain ⟨pre, post, hrows⟩ := List.append_of_mem hmem
      obtain ⟨n, hn⟩ := exists_sent sign { st with net := net, log := [] }
        hlatency hrows heligible (h pre delivery post hrows heligible)
      exact Filter.eventually_atTop.mpr ⟨n, fun m hle _ => sent_of_le hlatency hle hn⟩
    · exact .of_forall fun n h => absurd h heligible

end Runs

/-- The table of a delivery and of fifty older ones, whose endpoint is
inactive. -/
def crowded : WebhookDb where
  deliveries := ⟨(List.range 51).map fun n =>
      { createDelivery (0, n) (if n = 50 then 1 else 0) "payout" "\x7b\x7d" with
        status := .failed, nextRetryAt := some 0, updatedAt := n },
    by
      rw [List.map_map]
      exact List.nodup_range.map fun a b h => congrArg Prod.snd h⟩
  endpoints := [⟨0, "", "", ["payout"], false⟩, ⟨1, "", "", ["payout"], true⟩]
  jobs := []
  taken := []
  net := fun _ => ⟨.error ⟨some "timeout of 10000ms exceeded", none⟩, 0⟩
  served := 0
  now := 100
  log := []

/-- The delivery is never sent. -/
theorem queue_starved : (∀ k, (crowded.net k).latency = 0) ∧
    ∃ delivery ∈ crowded.deliveries.rows, Eligible crowded delivery ∧
      ∀ n, PostEvent.sent delivery.id ∉ ((runOnce fun _ _ => "")^[n] crowded).log := by
  refine ⟨fun _ => rfl, { createDelivery (0, 50) 1 "payout" "\x7b\x7d" with
    status := .failed, nextRetryAt := some 0, updatedAt := 50 }, ?_, ?_, ?_⟩
  · decide +kernel
  · decide +kernel
  · intro n
    have hrows : crowded.deliveries.rows = crowded.deliveries.rows.take 50 ++
        { createDelivery (0, 50) 1 "payout" "\x7b\x7d" with
          status := .failed, nextRetryAt := some 0, updatedAt := 50 } :: [] := by
      decide +kernel
    apply never_sent _ _ (fun _ => rfl) (fun _ => ⟨_, rfl⟩) hrows
    · decide +kernel
    · decide +kernel
    · exact List.not_mem_nil

end Webhooks

end NexaFx
