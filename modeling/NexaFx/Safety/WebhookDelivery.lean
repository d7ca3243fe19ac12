import NexaFx.Lib.Custody
import NexaFx.Model.Webhooks

/-!
# NexaFx — webhooks are delivered once

Jobs of the queue, runs of the retry job and manual retries, interleaved at
every await. Neither sender looks at the status before it sends, and a success
is recorded by a write that may fail or come late.

A delivery has one job, which works on it while it is PENDING; runs work on it
while it is FAILED. So the two never meet, and a delivery is posted once in
every interleaving in which a write that records a success does not fail, and
no run selects a delivery that another run has selected and not finished with
(`delivered_once`). `posted_again` has a run for each of the two.
-/

namespace NexaFx

open Async

namespace Webhooks

-- ---------------------------------------------------------------------------
-- The property
-- ---------------------------------------------------------------------------

/-- After a successful answer for the delivery no request for it is sent. -/
def Quiet (id : DeliveryId) (log : List PostEvent) : Prop :=
  ∀ earlier later, log = earlier ++ .answered id :: later → .sent id ∉ later

/-- What is asked of the configuration `cfg`, reached from `cfg₀`. -/
structure DeliveredOnce (cfg₀ cfg : WebhookPool) : Prop where
  posts : ∀ id, Quiet id cfg.state.log
  /-- What is stored as DELIVERED stays so. -/
  final : ∀ id row, cfg₀.state.delivery id = some row → row.status = .delivered →
    ∃ row', cfg.state.delivery id = some row' ∧ row'.status = .delivered

/-- The write records a success. -/
def WebhookCmd.RecordsSuccess : WebhookCmd → Prop
  | .save delivery => delivery.status = .delivered
  | .update _ patch => patch.status = some .delivered
  | _ => False

/-- The command does not concern the delivery, or leaves its status alone. -/
def Elsewhere (id : DeliveryId) : WebhookCmd → Prop
  | .insert delivery => delivery.status = .pending
  | .takeJob id' => id' ≠ id
  | .save delivery => delivery.id ≠ id
  | .send request => request.deliveryId ≠ id
  | .answer id' => id' ≠ id
  | .update id' patch => id' ≠ id ∨ patch.status = none
  | _ => True

/-- Successes are recorded, and a run selects no delivery with which another run
has still to do. -/
def recorded :
    Discipline WebhookCall WebhookCmd WebhookCmd.Reply Thrown WebhookDb Unit where
  onCall _ _ _ := True
  onStep cfg th c failed :=
    (c.RecordsSuccess → failed = false) ∧
    (th.call = .retryFailedDeliveries → th.begun = false →
      ∀ delivery ∈ cfg.state.findDue, ∀ j th', cfg.thread j = some th' →
        th'.call = .retryFailedDeliveries → th'.begun = true →
        th'.proc.Issues (Elsewhere delivery.id))

-- ---------------------------------------------------------------------------
-- One delivery
-- ---------------------------------------------------------------------------

def WebhookDb.statusOf (st : WebhookDb) (id : DeliveryId) : Option WebhookDeliveryStatus :=
  (st.delivery id).map WebhookDelivery.status

/-- What those do that do not work on the delivery. It may be created. -/
structure Rely (id : DeliveryId) (st st' : WebhookDb) : Prop where
  taken : id ∈ st'.taken ↔ id ∈ st.taken
  log : ∃ es, st'.log = st.log ++ es ∧ ∀ e ∈ es, e.delivery ≠ id
  status : st'.statusOf id = st.statusOf id ∨
    (st.statusOf id = none ∧ st'.statusOf id = some .pending)

/-- What always holds of the delivery. -/
structure Safe (id : DeliveryId) (st : WebhookDb) : Prop where
  quiet : Quiet id st.log
  stored : .stored id ∈ st.log ↔ st.statusOf id = some .delivered

/-- What holds when nobody works on it. -/
structure Sound (id : DeliveryId) (st : WebhookDb) : Prop extends Safe id st where
  answered : .answered id ∈ st.log → st.statusOf id = some .delivered
  waiting : id ∉ st.taken → st.statusOf id = none ∨ st.statusOf id = some .pending

/-- The delivery is worked on; its status is one of `ok`. -/
structure Working (id : DeliveryId) (ok : Option WebhookDeliveryStatus → Prop) (st : WebhookDb) :
    Prop extends Safe id st where
  taken : id ∈ st.taken
  status : ok (st.statusOf id)

/-- No request for it has been answered with success. -/
structure Unanswered (id : DeliveryId) (ok : Option WebhookDeliveryStatus → Prop)
    (st : WebhookDb) : Prop extends Working id ok st where
  unanswered : .answered id ∉ st.log

section Facts

variable {id : DeliveryId} {st st' st'' : WebhookDb} {log : List PostEvent}
  {ok ok' : Option WebhookDeliveryStatus → Prop}

/-- An event that is no request after a success. -/
theorem Quiet.append (h : Quiet id log) {e : PostEvent}
    (he : .answered id ∈ log → e ≠ .sent id) : Quiet id (log ++ [e]) := by
  intro earlier later hsplit hsent
  rcases List.eq_nil_or_concat later with rfl | ⟨init, last, rfl⟩
  · cases hsent
  · -- the last event is the new one
    rw [List.concat_eq_append, ← List.cons_append, ← List.append_assoc] at hsplit
    obtain ⟨hlog, hlast⟩ := List.append_inj' hsplit rfl
    obtain rfl : e = last := by simpa using hlast
    rw [List.concat_eq_append, List.mem_append, List.mem_singleton] at hsent
    rcases hsent with hsent | hsent
    · exact h earlier init hlog hsent
    · exact he (by rw [hlog]; simp) hsent.symm

theorem Quiet.append_others (h : Quiet id log) {es : List PostEvent}
    (hes : ∀ e ∈ es, e.delivery ≠ id) : Quiet id (log ++ es) := by
  induction es generalizing log with
  | nil => simpa using h
  | cons e es ih =>
    have hne : e ≠ .sent id := by
      rintro rfl
      exact hes _ (List.mem_cons_self ..) rfl
    have hhead := h.append (e := e) fun _ => hne
    have hrest := ih hhead fun e' he' => hes e' (List.mem_cons_of_mem _ he')
    rwa [List.append_assoc] at hrest

theorem Rely.refl (id : DeliveryId) (st : WebhookDb) : Rely id st st :=
  ⟨Iff.rfl, ⟨[], by simp⟩, Or.inl rfl⟩

theorem Rely.trans (h : Rely id st st') (h' : Rely id st' st'') : Rely id st st'' := by
  obtain ⟨es, hlog, hes⟩ := h.log
  obtain ⟨es', hlog', hes'⟩ := h'.log
  refine ⟨h'.taken.trans h.taken, ⟨es ++ es', by rw [hlog', hlog, List.append_assoc], ?_⟩, ?_⟩
  · intro e he
    rcases List.mem_append.mp he with he | he
    · exact hes e he
    · exact hes' e he
  · rcases h'.status with hsame | ⟨hnone, hpending⟩
    · rw [hsame]
      exact h.status
    · rcases h.status with hsame | ⟨_, hpending'⟩
      · exact Or.inr ⟨hsame.symm.trans hnone, hpending⟩
      · rw [hpending'] at hnone
        cases hnone

/-- An event of the delivery is in the log when it was there before. -/
theorem Rely.mem_log (h : Rely id st st') {e : PostEvent} (he : e.delivery = id) :
    e ∈ st'.log ↔ e ∈ st.log := by
  obtain ⟨es, hlog, hes⟩ := h.log
  rw [hlog, List.mem_append]
  exact ⟨fun hmem => hmem.resolve_right fun hnew => hes e hnew he, Or.inl⟩

theorem Rely.delivered (h : Rely id st st') :
    st'.statusOf id = some .delivered ↔ st.statusOf id = some .delivered := by
  rcases h.status with hsame | ⟨hnone, hpending⟩
  · rw [hsame]
  · rw [hnone, hpending]
    simp

theorem Safe.rely (h : Safe id st) (hr : Rely id st st') : Safe id st' := by
  refine ⟨?_, (hr.mem_log rfl).trans (h.stored.trans hr.delivered.symm)⟩
  obtain ⟨es, hlog, hes⟩ := hr.log
  rw [hlog]
  exact h.quiet.append_others hes

theorem Sound.rely (h : Sound id st) (hr : Rely id st st') : Sound id st' := by
  refine ⟨h.toSafe.rely hr, fun ha => ?_, fun hnot => ?_⟩
  · exact hr.delivered.mpr (h.answered ((hr.mem_log rfl).mp ha))
  · rcases hr.status with hsame | ⟨_, hpending⟩
    · rw [hsame]
      exact h.waiting fun htaken => hnot (hr.taken.mpr htaken)
    · exact Or.inr hpending

theorem Working.rely (h : Working id ok st) (hok : ok none → ok (some .pending))
    (hr : Rely id st st') : Working id ok st' := by
  refine ⟨h.toSafe.rely hr, hr.taken.mpr h.taken, ?_⟩
  rcases hr.status with hsame | ⟨hnone, hpending⟩
  · rw [hsame]
    exact h.status
  · rw [hpending]
    exact hok (hnone ▸ h.status)

theorem Unanswered.rely (h : Unanswered id ok st) (hok : ok none → ok (some .pending))
    (hr : Rely id st st') : Unanswered id ok st' :=
  ⟨h.toWorking.rely hok hr, fun ha => h.unanswered ((hr.mem_log rfl).mp ha)⟩

/-- A delivery without an answer is at rest, whoever works on it. -/
theorem Unanswered.sound (h : Unanswered id ok st) : Sound id st :=
  ⟨h.toSafe, fun ha => absurd ha h.unanswered, fun hnot => absurd h.taken hnot⟩

/-- A DELIVERED one too. -/
theorem Working.sound (h : Working id (· = some .delivered) st) : Sound id st :=
  ⟨h.toSafe, fun _ => h.status, fun hnot => absurd h.taken hnot⟩

theorem Unanswered.mono (h : Unanswered id ok st) (himp : ∀ s, ok s → ok' s) :
    Unanswered id ok' st :=
  ⟨⟨h.toSafe, h.taken, himp _ h.status⟩, h.unanswered⟩

end Facts

-- ---------------------------------------------------------------------------
-- The commands
-- ---------------------------------------------------------------------------

section Commands

variable {id : DeliveryId} {st st' : WebhookDb} {ok : Option WebhookDeliveryStatus → Prop}
  {delivery : WebhookDelivery} {patch : DeliveryPatch}

-- the equation is generated here, once
attribute [local simp] WebhookDb.statusOf in
theorem statusOf_save (st : WebhookDb) (delivery : WebhookDelivery) (id : DeliveryId) :
    (st.save delivery).statusOf id =
      if delivery.id = id then some delivery.status else st.statusOf id := by
  unfold WebhookDb.statusOf
  rw [show (st.save delivery).delivery id = (st.put delivery).delivery id from rfl, delivery_put]
  split <;> rfl

theorem log_save (st : WebhookDb) (delivery : WebhookDelivery) :
    (st.save delivery).log =
      st.log ++ if delivery.status = .delivered then [.stored delivery.id] else [] := by
  simp [WebhookDb.save, WebhookDb.note, WebhookDb.put]

/-- What an update leaves of the row. -/
theorem statusOf_update (st : WebhookDb) (id' : DeliveryId) (patch : DeliveryPatch)
    (id : DeliveryId) :
    (st.update id' patch).statusOf id =
      if id' = id then (st.statusOf id).map patch.status.getD else st.statusOf id := by
  unfold WebhookDb.statusOf WebhookDb.update
  cases hrow : st.delivery id' with
  | none =>
    by_cases hid : id' = id
    · subst hid
      rw [if_pos rfl, hrow]
      rfl
    · rw [if_neg hid]
  | some row =>
    have hid' : row.id = id' := id_of_delivery hrow
    simp only
    rw [show ((st.put ((patch.apply row).touch st.now)).note id' patch.status).delivery id =
      (st.put ((patch.apply row).touch st.now)).delivery id from rfl, delivery_put,
      show ((patch.apply row).touch st.now).id = id' from hid']
    split
    · rename_i hid
      rw [← hid, hrow]
      rfl
    · rfl

theorem update_taken (st : WebhookDb) (id' : DeliveryId) (patch : DeliveryPatch) :
    (st.update id' patch).taken = st.taken := by
  unfold WebhookDb.update
  cases st.delivery id' <;> rfl

theorem log_update (st : WebhookDb) (id' : DeliveryId) (patch : DeliveryPatch) :
    (st.update id' patch).log = st.log ++
      if (st.statusOf id').isSome = true ∧ patch.status = some .delivered then [.stored id']
      else [] := by
  unfold WebhookDb.update WebhookDb.statusOf
  cases st.delivery id' <;> simp [WebhookDb.note, WebhookDb.put]

/-- A write of another delivery. -/
theorem rely_save (delivery : WebhookDelivery) (hne : delivery.id ≠ id) : Rely id st (st.save delivery) := by
  refine ⟨Iff.rfl, ⟨_, log_save st delivery, fun e he => ?_⟩, Or.inl ?_⟩
  · split at he
    · rw [List.mem_singleton] at he
      rw [he]
      exact hne
    · cases he
  · rw [statusOf_save, if_neg hne]

-- the equations of `exec` are generated here, once
attribute [local simp] exec in
theorem rely_of_elsewhere {c : WebhookCmd} {a : c.Reply} (hc : Elsewhere id c)
    (h : exec c st = .ok (a, st')) : Rely id st st' := by
  cases c with
  | insert delivery =>
    simp only [exec, WebhookDb.insert] at h
    split at h
    · cases h
    · rename_i hinsert
      split at hinsert
      · cases hinsert
      · rename_i hnew
        cases hinsert
        cases h
        -- the row is new and PENDING
        have hpending : (delivery.stamp st.now).status = .pending := hc
        refine ⟨Iff.rfl, ⟨[], ?_, fun e he => by cases he⟩, ?_⟩
        · rw [log_save, hpending]
          rfl
        · rw [statusOf_save]
          split
          · rename_i hid
            have hnone : st.statusOf id = none := by
              rw [← hid]
              simpa [WebhookDb.statusOf] using hnew
            exact Or.inr ⟨hnone, by rw [hpending]⟩
          · exact Or.inl rfl
  | takeJob id' =>
    simp only [exec] at h
    split at h
    · cases h
      exact .refl _ _
    · cases h
      refine ⟨?_, ⟨[], by simp⟩, Or.inl rfl⟩
      have hne : id ≠ id' := Ne.symm hc
      simp [hne]
  | save delivery =>
    cases h
    exact rely_save (delivery.touch st.now) hc
  | send request =>
    cases h
    refine ⟨Iff.rfl, ⟨[.sent request.deliveryId], rfl, fun e he => ?_⟩, Or.inl rfl⟩
    rw [List.mem_singleton] at he
    rw [he]
    exact hc
  | answer id' =>
    cases h
    refine ⟨Iff.rfl, ⟨_, rfl, fun e he => ?_⟩, Or.inl rfl⟩
    split at he
    · rw [List.mem_singleton] at he
      rw [he]
      exact hc
    · cases he
  | update id' patch =>
    cases h
    refine ⟨by rw [update_taken], ⟨_, log_update st id' patch, fun e he => ?_⟩, Or.inl ?_⟩
    · split at he
      · rename_i hstored
        rw [List.mem_singleton] at he
        rw [he]
        exact hc.resolve_right (by simp [hstored.2])
      · cases he
    · rw [statusOf_update]
      split
      · rename_i hid
        rw [hc.resolve_left (not_not.mpr hid)]
        cases st.statusOf id <;> rfl
      · rfl
  | addJob id' n =>
    cases h
    exact ⟨Iff.rfl, ⟨[], by simp⟩, Or.inl rfl⟩
  | setEndpoints endpoints =>
    cases h
    exact ⟨Iff.rfl, ⟨[], by simp⟩, Or.inl rfl⟩
  | tick ms =>
    cases h
    exact ⟨Iff.rfl, ⟨[], by simp⟩, Or.inl rfl⟩
  | _ =>
    cases h
    exact .refl _ _

/-- A request for the delivery, before any answer. -/
theorem Unanswered.send (h : Unanswered id ok st) :
    Unanswered id ok { st with log := st.log ++ [.sent id] } := by
  refine ⟨⟨⟨h.quiet.append fun ha => absurd ha h.unanswered, ?_⟩, h.taken, h.status⟩, ?_⟩
  · rw [List.mem_append, List.mem_singleton]
    exact (or_iff_left (by simp)).trans h.stored
  · rw [List.mem_append, List.mem_singleton]
    exact fun ha => ha.elim h.unanswered (by simp)

/-- It is answered, with success or without. -/
theorem Unanswered.answer (h : Unanswered id ok st) :
    Working id ok (st.serve id) ∧
      ∀ e, (st.net st.served).result = .error e → Unanswered id ok (st.serve id) := by
  cases hresult : (st.net st.served).result with
  | error e =>
    have hlog : (st.serve id).log = st.log := by simp [WebhookDb.serve, hresult]
    have hnext : Unanswered id ok (st.serve id) := by
      refine ⟨⟨⟨?_, ?_⟩, h.taken, h.status⟩, ?_⟩
      · rw [hlog]
        exact h.quiet
      · rw [hlog]
        exact h.stored
      · rw [hlog]
        exact h.unanswered
    exact ⟨hnext.toWorking, fun _ _ => hnext⟩
  | ok n =>
    have hlog : (st.serve id).log = st.log ++ [.answered id] := by
      simp [WebhookDb.serve, hresult]
    refine ⟨⟨⟨?_, ?_⟩, h.taken, h.status⟩, fun e he => by cases he⟩
    · rw [hlog]
      exact h.quiet.append fun _ => by simp
    · rw [hlog, List.mem_append, List.mem_singleton]
      exact (or_iff_left (by simp)).trans h.stored

/-- A status other than DELIVERED is written, before any answer. -/
theorem Unanswered.save (h : Unanswered id ok st) (delivery : WebhookDelivery)
    (hok : ∀ s, ok s → s ≠ some .delivered) (hid : delivery.id = id) (hstatus : delivery.status ≠ .delivered) :
    Unanswered id (· = some delivery.status) (st.save delivery) := by
  have hlog : (st.save delivery).log = st.log := by
    rw [log_save, if_neg hstatus, List.append_nil]
  have hsaved : (st.save delivery).statusOf id = some delivery.status := by
    rw [statusOf_save, if_pos hid]
  refine ⟨⟨⟨?_, ?_⟩, h.taken, hsaved⟩, ?_⟩
  · rw [hlog]
    exact h.quiet
  · rw [hlog, hsaved, h.stored]
    constructor
    · exact fun hd => absurd hd (hok _ h.status)
    · intro hd
      exact absurd (Option.some.inj hd) hstatus
  · rw [hlog]
    exact h.unanswered

/-- DELIVERED is written. -/
theorem Working.saveDelivered (h : Working id ok st) (delivery : WebhookDelivery) (hid : delivery.id = id)
    (hstatus : delivery.status = .delivered) :
    Working id (· = some .delivered) (st.save delivery) := by
  have hlog : (st.save delivery).log = st.log ++ [.stored id] := by
    rw [log_save, if_pos hstatus, hid]
  have hsaved : (st.save delivery).statusOf id = some .delivered := by
    rw [statusOf_save, if_pos hid, hstatus]
  refine ⟨⟨?_, ?_⟩, h.taken, hsaved⟩
  · rw [hlog]
    exact h.quiet.append fun _ => by simp
  · rw [hlog, hsaved]
    simp

/-- The same of an update of a row that is there. -/
theorem Working.updateDelivered (h : Working id ok st) (hrow : (st.statusOf id).isSome = true)
    (hstatus : patch.status = some .delivered) :
    Working id (· = some .delivered) (st.update id patch) := by
  have hlog : (st.update id patch).log = st.log ++ [.stored id] := by
    rw [log_update, if_pos ⟨hrow, hstatus⟩]
  have hsaved : (st.update id patch).statusOf id = some .delivered := by
    obtain ⟨s, hs⟩ := Option.isSome_iff_exists.mp hrow
    rw [statusOf_update, if_pos rfl, hs, hstatus]
    rfl
  refine ⟨⟨?_, ?_⟩, ?_, hsaved⟩
  · rw [hlog]
    exact h.quiet.append fun _ => by simp
  · rw [hlog, hsaved]
    simp
  · rw [update_taken]
    exact h.taken

/-- FAILED is written over FAILED. -/
theorem Unanswered.updateFailed (h : Unanswered id (· = some .failed) st)
    (hstatus : patch.status = some .failed) :
    Unanswered id (· = some .failed) (st.update id patch) := by
  have hlog : (st.update id patch).log = st.log := by
    rw [log_update, if_neg (by simp [hstatus]), List.append_nil]
  have hsaved : (st.update id patch).statusOf id = some .failed := by
    rw [statusOf_update, if_pos rfl, h.status, hstatus]
    rfl
  refine ⟨⟨⟨?_, ?_⟩, ?_, hsaved⟩, ?_⟩
  · rw [hlog]
    exact h.quiet
  · rw [hlog, hsaved, h.stored, h.status]
  · rw [update_taken]
    exact h.taken
  · rw [hlog]
    exact h.unanswered

end Commands

-- ---------------------------------------------------------------------------
-- A run of the retry job
-- ---------------------------------------------------------------------------

/-- How it shows that a call works on the delivery: its job is out, and a job
works on what is PENDING. -/
def Has (id : DeliveryId) : WebhookCall → WebhookDb → Prop
  | .processJob _, st =>
    id ∈ st.taken ∧ (st.statusOf id = none ∨ st.statusOf id = some .pending)
  | _, st => id ∈ st.taken

/-- The delivery, as a thing to work on. -/
def posting (id : DeliveryId) :
    Thing WebhookCall WebhookCmd WebhookCmd.Reply Thrown WebhookDb where
  exec := exec
  mayFail := mayFail
  allows c failed _ := c.RecordsSuccess → failed = false
  rely := Rely id
  safe := Safe id
  rest := Sound id
  away := Elsewhere id
  held := Has id

/-- The run goes on, with nothing left to do for the delivery. -/
structure Finished (id : DeliveryId) (st : WebhookDb) : Prop extends Sound id st where
  taken : id ∈ st.taken

section Retry

variable {sign : String → Body → String} {id : DeliveryId} {st : WebhookDb}
  {delivery : WebhookDelivery}

theorem Unanswered.finished {ok : Option WebhookDeliveryStatus → Prop}
    (h : Unanswered id ok st) : Finished id st := ⟨h.sound, h.taken⟩

theorem Working.finished (h : Working id (· = some .delivered) st) : Finished id st :=
  ⟨h.sound, h.taken⟩

/-- An await before any answer. -/
theorem Unanswered.call_bind {ok : Option WebhookDeliveryStatus → Prop} {me : WebhookCall}
    {c : WebhookCmd} {k : c.Reply → WebhookProc Unit} {post : Except Thrown Unit → WebhookDb → Prop}
    (h : Unanswered id ok st) (hok : ok none → ok (some .pending))
    (hheld : ∀ s, Unanswered id ok s → Has id me s)
    (hnext : ∀ s a s', Unanswered id ok s → exec c s = .ok (a, s') →
      (k a).Custody (posting id) me post s')
    (herror : ∀ s e, Unanswered id ok s → post (.error e) s) :
    ((Proc.call c).bind k).Custody (posting id) me post st :=
  Proc.custody_call_bind (A := Unanswered id ok) h (fun _ _ h hr => h.rely hok hr)
    (fun _ h => h.toSafe) hheld (fun _ h => Or.inl h.sound)
    (fun s a s' h _ hexec => hnext s a s' h hexec) fun s e h _ _ => herror s e h

theorem Unanswered.call {ok : Option WebhookDeliveryStatus → Prop} {me : WebhookCall}
    {c : WebhookCmd} {post : Except Thrown c.Reply → WebhookDb → Prop}
    (h : Unanswered id ok st) (hok : ok none → ok (some .pending))
    (hheld : ∀ s, Unanswered id ok s → Has id me s)
    (hnext : ∀ s a s', Unanswered id ok s → exec c s = .ok (a, s') → post (.ok a) s')
    (herror : ∀ s e, Unanswered id ok s → post (.error e) s) :
    (Proc.call c : WebhookProc c.Reply).Custody (posting id) me post st :=
  Proc.custody_call (A := Unanswered id ok) h (fun _ _ h hr => h.rely hok hr)
    (fun _ h => h.toSafe) hheld (fun _ h => Or.inl h.sound)
    (fun s a s' h _ hexec => hnext s a s' h hexec) fun s e h _ _ => herror s e h

/-- The write that records a success, which does not fail. -/
theorem Working.record {status : WebhookDeliveryStatus} {me : WebhookCall} {c : Time → WebhookCmd}
    {k : (t : Time) → Except Thrown (c t).Reply → WebhookProc Unit}
    {post : Except Thrown Unit → WebhookDb → Prop} (h : Working id (· = some status) st)
    (hheld : ∀ s, Working id (· = some status) s → Has id me s)
    (hrecords : ∀ t, (c t).RecordsSuccess) (hhere : ∀ t, ¬ Elsewhere id (c t))
    (hnext : ∀ t s a s', Working id (· = some status) s → exec (c t) s = .ok (a, s') →
      (k t (.ok a)).Custody (posting id) me post s') :
    ((Proc.call .now).bind fun t => (Proc.call (c t)).attempt.bind (k t)).Custody (posting id) me
      post st := by
  -- from here on to the write the call is not clear
  refine Proc.custody_call_bind (A := Working id (· = some status)) h
    (fun _ _ h hr => h.rely (by simp) hr) (fun _ h => h.toSafe) hheld
    (fun _ _ => Or.inr (Or.inr ⟨0, fun hissues => hhere 0 hissues.1⟩))
    (fun s t s' h _ hexec => ?_) fun _ _ _ _ hcan => ?_
  · cases hexec
    refine Proc.custody_try_bind (A := Working id (· = some status)) h
      (fun _ _ h hr => h.rely (by simp) hr) (fun _ h => h.toSafe) hheld
      (fun _ _ => Or.inr (hhere s.now)) (fun s' a s'' h _ hexec => hnext s.now s' a s'' h hexec)
      fun _ _ _ hallow _ => ?_
    have hfalse := hallow (hrecords s.now)
    cases hfalse
  · rcases hcan with hcan | hcan <;> cases hcan

/-- The update after a retry that failed. -/
theorem retryFailed_custody (hid : delivery.id = id) (error : Thrown)
    (h : Unanswered id (· = some .failed) st) :
    (retryFailed delivery error).Custody (posting id) .retryFailedDeliveries
      (fun _ => Finished id) st := by
  subst hid
  have hupdate : ∀ patch : DeliveryPatch, patch.status = some .failed → ∀ st,
      Unanswered delivery.id (· = some .failed) st →
      (Webhooks.await (.update delivery.id patch)).Custody (posting delivery.id)
        .retryFailedDeliveries (fun _ => Finished delivery.id) st := by
    intro patch hstatus st h
    refine h.call (by simp) (fun _ h => h.taken) (fun s _ s' h hexec => ?_) fun _ _ h => h.finished
    cases hexec
    exact (h.updateFailed hstatus).finished
  unfold retryFailed
  split
  · refine h.call_bind (by simp) (fun _ h => h.taken) (fun s now s' h hexec => ?_)
      fun _ _ h => h.finished
    cases hexec
    exact hupdate _ rfl s h
  · exact hupdate _ rfl st h

/-- One delivery of a run, which was found FAILED. -/
theorem retryOne_custody (sign : String → Body → String) (hid : delivery.id = id)
    (h : Unanswered id (· = some .failed) st) :
    (retryOne sign delivery).Custody (posting id) .retryFailedDeliveries
      (fun _ => Finished id) st := by
  subst hid
  unfold retryOne
  split
  · -- the retries are used up
    refine h.call (by simp) (fun _ h => h.taken) (fun s _ s' h hexec => ?_) fun _ _ h => h.finished
    cases hexec
    exact (h.updateFailed rfl).finished
  · refine h.call_bind (by simp) (fun _ h => h.taken) (fun s found s' h hexec => ?_)
      fun _ _ h => h.finished
    have hs' : s' = s := by
      cases hexec
      rfl
    subst hs'
    cases found with
    | none => exact h.finished
    | some endpoint =>
      simp only
      split
      · exact h.finished
      · refine h.call_bind (by simp) (fun _ h => h.taken) (fun s now s' h hexec => ?_)
          fun _ _ h => h.finished
        cases hexec
        refine h.call_bind (by simp) (fun _ h => h.taken) (fun s _ s' h hexec => ?_)
          fun _ _ h => h.finished
        cases hexec
        refine h.send.call_bind (by simp) (fun _ h => h.taken) (fun s result s' h hexec => ?_)
          fun _ _ h => h.finished
        obtain ⟨hworking, hrejected⟩ := h.answer
        have hs' : s' = s.serve delivery.id := by
          cases hexec
          rfl
        have hresult : (s.net s.served).result = result := by
          cases hexec
          rfl
        subst hs'
        cases result with
        | error error => exact retryFailed_custody rfl error (hrejected error hresult)
        | ok status =>
          refine hworking.record (fun _ h => h.taken) (fun _ => rfl) (fun t haway => ?_)
            fun t s a s' h hexec => ?_
          · rcases haway with hne | hnone
            · exact hne rfl
            · cases hnone
          · cases hexec
            exact (h.updateDelivered (by rw [h.status]; rfl) rfl).finished

/-- A part of a run without the delivery. -/
theorem retryOne_elsewhere (sign : String → Body → String) (hne : delivery.id ≠ id) :
    (retryOne sign delivery).Issues (Elsewhere id) := by
  have hfailed : ∀ error, (retryFailed delivery error).Issues (Elsewhere id) := by
    intro error
    unfold retryFailed
    split
    · exact Proc.issues_bind (Proc.issues_call.mpr trivial) fun _ =>
        Proc.issues_call.mpr (Or.inl hne)
    · exact Proc.issues_call.mpr (Or.inl hne)
  unfold retryOne
  split
  · exact Proc.issues_call.mpr (Or.inl hne)
  · refine Proc.issues_bind (Proc.issues_call.mpr trivial) fun found => ?_
    cases found with
    | none => exact Proc.issues_done _
    | some endpoint =>
      simp only
      split
      · exact Proc.issues_done _
      · refine Proc.issues_bind (Proc.issues_call.mpr trivial) fun _ => ?_
        refine Proc.issues_bind (Proc.issues_call.mpr hne) fun _ => ?_
        refine Proc.issues_bind (Proc.issues_call.mpr hne) fun result => ?_
        cases result with
        | error error => exact hfailed error
        | ok status =>
          refine Proc.issues_bind (Proc.issues_call.mpr trivial) fun _ => ?_
          refine Proc.issues_bind (Proc.issues_attempt (Proc.issues_call.mpr (Or.inl hne)))
            fun recorded => ?_
          cases recorded with
          | ok _ => exact Proc.issues_done _
          | error error => exact hfailed error

theorem retryAll_elsewhere (sign : String → Body → String) {due : List WebhookDelivery}
    (hne : ∀ delivery ∈ due, delivery.id ≠ id) : (retryAll sign due).Issues (Elsewhere id) := by
  induction due with
  | nil => exact Proc.issues_done _
  | cons delivery due ih =>
    unfold retryAll
    refine Proc.issues_bind (retryOne_elsewhere sign (hne delivery (List.mem_cons_self ..)))
      fun _ => ih fun d hd => hne d (List.mem_cons_of_mem _ hd)

/-- A run that has selected the delivery. -/
theorem retryAll_custody (sign : String → Body → String) {due : List WebhookDelivery}
    (hnodup : (due.map WebhookDelivery.id).Nodup) (hmem : delivery ∈ due)
    (hid : delivery.id = id) (h : Unanswered id (· = some .failed) st) :
    (retryAll sign due).Custody (posting id) .retryFailedDeliveries (fun _ => Sound id) st := by
  induction due generalizing st with
  | nil => cases hmem
  | cons first due ih =>
    rw [List.map_cons, List.nodup_cons] at hnodup
    unfold retryAll
    by_cases hfirst : first.id = id
    · -- its turn: the others come after it
      have hothers : ∀ d ∈ due, d.id ≠ id := by
        rintro d hd rfl
        exact hnodup.1 (hfirst ▸ List.mem_map_of_mem hd)
      refine Proc.custody_bind (Proc.custody_mono ?_ (retryOne_custody sign hfirst h))
      intro r s hs
      cases r with
      | error e => exact hs.toSound
      | ok _ =>
        exact Proc.custody_away (A := Finished id) (retryAll_elsewhere sign hothers)
          (fun _ _ _ _ hc hexec => rely_of_elsewhere hc hexec) hs
          (fun _ _ h hr => ⟨h.toSound.rely hr, hr.taken.mpr h.taken⟩) (fun _ h => h.toSafe)
          (fun _ h => h.taken) (fun _ h => h.toSound) fun _ _ h => h.toSound
    · have hmem : delivery ∈ due := by
        rcases List.mem_cons.mp hmem with rfl | hmem
        · exact absurd hid hfirst
        · exact hmem
      refine Proc.custody_bind (Proc.custody_away (A := Unanswered id (· = some .failed))
        (retryOne_elsewhere sign hfirst) (fun _ _ _ _ hc hexec => rely_of_elsewhere hc hexec) h
        (fun _ _ h hr => h.rely (by simp) hr) (fun _ h => h.toSafe) (fun _ h => h.taken) (fun _ h => h.sound)
        fun r s hs => ?_)
      cases r with
      | error e => exact hs.sound
      | ok _ => exact ih hnodup.2 hmem hs

end Retry

-- ---------------------------------------------------------------------------
-- A job
-- ---------------------------------------------------------------------------

/-- The row that a job works on. It may be not there yet. -/
def Open (status : Option WebhookDeliveryStatus) : Prop :=
  status = none ∨ status = some .pending

section Jobs

variable {config : WebhookConfig} {sign : String → Body → String} {id : DeliveryId}
  {st : WebhookDb} {delivery : WebhookDelivery} {job : Job}

theorem Unanswered.opened (h : Unanswered id (· = some .pending) st) : Unanswered id Open st :=
  h.mono fun _ => Or.inr

/-- An attempt that throws leaves the delivery to the next one. -/
def Attempted (id : DeliveryId) : Except Thrown Unit → WebhookDb → Prop
  | .ok _, st => Sound id st
  | .error _, st => Unanswered id Open st

/-- A save of the loaded delivery, before any answer. -/
theorem save_custody (delivery : WebhookDelivery) (h : Unanswered id (· = some .pending) st) (hid : delivery.id = id)
    (hstatus : delivery.status ≠ .delivered) :
    (Webhooks.await (.save delivery)).Custody (posting id) (.processJob id) (Attempted id) st := by
  refine h.call (by simp) (fun _ h => ⟨h.taken, Or.inr h.status⟩) (fun s _ s' h hexec => ?_)
    fun _ _ h => h.opened
  cases hexec
  have hsaved := h.save (delivery.touch s.now) (by simp) hid hstatus
  exact hsaved.sound

theorem deliveryFailed_custody (delivery : WebhookDelivery) (h : Unanswered id (· = some .pending) st) (hid : delivery.id = id)
    (hstatus : delivery.status = .pending) (job : Job) (made : ℕ) (error : Thrown) :
    (deliveryFailed job made delivery error).Custody (posting id) (.processJob id) (Attempted id)
      st := by
  unfold deliveryFailed
  split
  · -- the last attempt: FAILED
    exact save_custody (delivery.reject error).fail h hid (by
      rw [show (delivery.reject error).fail.status = .failed from rfl]
      simp)
  · refine h.call_bind (by simp) (fun _ h => ⟨h.taken, Or.inr h.status⟩) (fun s _ s' h hexec => ?_)
      fun _ _ h => h.opened
    cases hexec
    have hsaved := h.save ((delivery.reject error).touch s.now) (by simp) hid (by
      rw [show ((delivery.reject error).touch s.now).status = delivery.status from rfl, hstatus]
      simp)
    exact hsaved.mono fun s hs => Or.inr (hs.trans (congrArg some hstatus))

/-- One attempt. -/
theorem deliver_custody (config : WebhookConfig) (sign : String → Body → String)
    (hjob : job.deliveryId = id) (made : ℕ) (h : Unanswered id Open st) :
    (deliver config sign job made).Custody (posting id) (.processJob id) (Attempted id) st := by
  unfold deliver
  refine h.call_bind (fun _ => Or.inr rfl) (fun _ h => ⟨h.taken, h.status⟩)
    (fun s found s' h hexec => ?_) fun _ _ h => h
  obtain ⟨hfound, rfl⟩ : s.delivery job.deliveryId = found ∧ s' = s := by
    cases hexec
    exact ⟨rfl, rfl⟩
  cases found with
  | none => exact h.sound
  | some delivery =>
    simp only
    obtain rfl : delivery.id = id := (id_of_delivery hfound).trans hjob
    -- the delivery was loaded while it was PENDING
    have hloaded : s'.statusOf delivery.id = some delivery.status := by
      rw [WebhookDb.statusOf, ← hjob, hfound]
      rfl
    have hstatus : delivery.status = .pending := by
      rcases h.status with hnone | hpending
      · rw [hnone] at hloaded
        cases hloaded
      · rw [hpending] at hloaded
        exact (Option.some.inj hloaded).symm
    have h : Unanswered delivery.id (· = some .pending) s' :=
      ⟨⟨h.toSafe, h.taken, by rw [hloaded, hstatus]⟩, h.unanswered⟩
    refine h.call_bind (by simp) (fun _ h => ⟨h.taken, Or.inr h.status⟩)
      (fun s found s' h hexec => ?_) fun _ _ h => h.opened
    have hs' : s' = s := by
      cases hexec
      rfl
    subst hs'
    cases found with
    | none =>
      exact save_custody delivery.lost h rfl (by
        rw [show delivery.lost.status = .failed from rfl]
        simp)
    | some endpoint =>
      simp only
      refine h.call_bind (by simp) (fun _ h => ⟨h.taken, Or.inr h.status⟩)
        (fun s now s' h hexec => ?_) fun _ _ h => h.opened
      cases hexec
      split
      · refine h.call_bind (by simp) (fun _ h => ⟨h.taken, Or.inr h.status⟩)
          (fun s t s' h hexec => ?_) fun _ _ h => h.opened
        cases hexec
        exact save_custody (delivery.expire s.now) h rfl (by
          rw [show (delivery.expire s.now).status = .expired from rfl]
          simp)
      · refine h.call_bind (by simp) (fun _ h => ⟨h.taken, Or.inr h.status⟩)
          (fun s₁ t s' h hexec => ?_) fun _ _ h => h.opened
        cases hexec
        refine h.call_bind (by simp) (fun _ h => ⟨h.taken, Or.inr h.status⟩)
          (fun s' _ s'' h hexec => ?_) fun _ _ h => h.opened
        cases hexec
        -- the attempt is noted, and the delivery is still PENDING
        have hsaved := h.save ((delivery.attempt s₁.now).touch s'.now) (by simp) rfl (by
          rw [show ((delivery.attempt s₁.now).touch s'.now).status = delivery.status from rfl,
            hstatus]
          simp)
        have h : Unanswered delivery.id (· = some .pending) _ := hsaved.mono fun s hs =>
          hs.trans (congrArg some hstatus)
        refine h.call_bind (by simp) (fun _ h => ⟨h.taken, Or.inr h.status⟩)
          (fun s now s' h hexec => ?_) fun _ _ h => h.opened
        cases hexec
        refine h.call_bind (by simp) (fun _ h => ⟨h.taken, Or.inr h.status⟩)
          (fun s _ s' h hexec => ?_) fun _ _ h => h.opened
        cases hexec
        refine h.send.call_bind (by simp) (fun _ h => ⟨h.taken, Or.inr h.status⟩)
          (fun s' result s'' h hexec => ?_) fun _ _ h => h.opened
        obtain ⟨hworking, hrejected⟩ := h.answer
        obtain ⟨hresult, rfl⟩ : (s'.net s'.served).result = result ∧
            s'' = s'.serve delivery.id := by
          cases hexec
          exact ⟨rfl, rfl⟩
        cases result with
        | error error =>
          exact deliveryFailed_custody (delivery.attempt s₁.now) (hrejected error hresult) rfl
            hstatus job made error
        | ok status =>
          refine hworking.record (fun _ h => ⟨h.taken, Or.inr h.status⟩) (fun _ => rfl)
            (fun t haway => haway rfl) fun t s' _ s'' h hexec => ?_
          cases hexec
          have hdelivered := h.saveDelivered
            (((delivery.attempt s₁.now).deliver status t).touch s'.now) rfl rfl
          exact hdelivered.sound

/-- A job, from its first attempt to its last. -/
theorem attempts_custody (config : WebhookConfig) (sign : String → Body → String)
    (hjob : job.deliveryId = id) (left : ℕ) : ∀ (made : ℕ) (st : WebhookDb),
    Unanswered id Open st → (attempts config sign job left made).Custody (posting id)
      (.processJob id) (fun _ => Sound id) st := by
  have hsound : ∀ r s, Attempted id r s → Sound id s := by
    intro r s h
    cases r with
    | ok _ => exact h
    | error e => exact Unanswered.sound h
  induction left with
  | zero =>
    intro made st h
    exact Proc.custody_mono hsound (deliver_custody config sign hjob made h)
  | succ left ih =>
    intro made st h
    refine Proc.custody_bind (Proc.custody_attempt (Proc.custody_mono (fun r s hs => ?_)
      (deliver_custody config sign hjob made h)))
    cases r with
    | ok _ => exact hs
    | error e => exact ih (made + 1) s hs

/-- What the other jobs learn. -/
def Answers : (c : WebhookCmd) → c.Reply → Prop
  | .takeJob id, reply => ∀ job : Job, reply = some job → job.deliveryId = id
  | .findDelivery id, reply => ∀ delivery : WebhookDelivery, reply = some delivery → delivery.id = id
  | _, _ => True

theorem deliveryId_of_waiting (h : st.waiting id = some job) :
    id ∉ st.taken ∧ job.deliveryId = id := by
  unfold WebhookDb.waiting at h
  split at h
  · cases h
  · rename_i hnot
    have hfound := List.find?_some h
    exact ⟨hnot, of_decide_eq_true hfound⟩

theorem exec_answers {c : WebhookCmd} {a : c.Reply} {st' : WebhookDb}
    (h : exec c st = .ok (a, st')) : Answers c a := by
  cases c with
  | takeJob id =>
    simp only [exec] at h
    split at h
    · cases h
      intro job hjob
      cases hjob
    · rename_i job hwaiting
      cases h
      intro job' hjob
      obtain rfl : job = job' := Option.some.inj hjob
      exact (deliveryId_of_waiting hwaiting).2
  | findDelivery id =>
    cases h
    exact fun delivery => id_of_delivery
  | _ => trivial

/-- A job of another delivery. -/
theorem processJob_elsewhere (config : WebhookConfig) (sign : String → Body → String)
    {other : DeliveryId} (hother : other ≠ id) :
    (processJob config sign other).Always Answers fun c _ => Elsewhere id c := by
  have hfailed : ∀ (job : Job) made (delivery : WebhookDelivery) error, delivery.id ≠ id →
      (deliveryFailed job made delivery error).Always Answers fun c _ => Elsewhere id c := by
    intro job made delivery error hne
    refine Proc.always_of_issues (P := Elsewhere id) (fun _ _ h => h) ?_
    unfold deliveryFailed
    split
    · exact Proc.issues_call.mpr hne
    · exact Proc.issues_bind (Proc.issues_call.mpr hne) fun _ => Proc.issues_done _
  have hdeliver : ∀ (job : Job) made, job.deliveryId = other →
      (deliver config sign job made).Always Answers fun c _ => Elsewhere id c := by
    intro job made hjob
    unfold deliver
    refine Proc.always_call_bind trivial fun found hfound => ?_
    cases found with
    | none => exact .done _
    | some delivery =>
      simp only
      have hne : delivery.id ≠ id := by
        rw [hfound delivery rfl, hjob]
        exact hother
      have hsave : ∀ d : WebhookDelivery, d.id ≠ id →
          (Webhooks.await (.save d)).Always Answers fun c _ => Elsewhere id c := fun d hd =>
        Proc.always_of_issues (P := Elsewhere id) (fun _ _ h => h) (Proc.issues_call.mpr hd)
      refine Proc.always_call_bind trivial fun endpoint _ => ?_
      cases endpoint with
      | none => exact hsave _ hne
      | some endpoint =>
        refine Proc.always_call_bind trivial fun now _ => ?_
        split
        · exact Proc.always_call_bind trivial fun t _ => hsave _ hne
        · refine Proc.always_call_bind trivial fun t _ => ?_
          refine Proc.always_call_bind (c := WebhookCmd.save (delivery.attempt t)) hne
            fun _ _ => ?_
          refine Proc.always_call_bind trivial fun now _ => ?_
          refine Proc.always_call_bind hne fun _ _ => ?_
          refine Proc.always_call_bind hne fun result _ => ?_
          cases result with
          | error error => exact hfailed job made (delivery.attempt t) error hne
          | ok status =>
            refine Proc.always_call_bind trivial fun t' _ => ?_
            refine Proc.always_bind (Proc.always_attempt (hsave _ hne)) fun recorded => ?_
            cases recorded with
            | ok _ => exact .done _
            | error error => exact hfailed job made _ error hne
  have hattempts : ∀ (job : Job) left made, job.deliveryId = other →
      (attempts config sign job left made).Always Answers fun c _ => Elsewhere id c := by
    intro job left
    induction left with
    | zero => exact fun made hjob => hdeliver job made hjob
    | succ left ih =>
      intro made hjob
      refine Proc.always_bind (Proc.always_attempt (hdeliver job made hjob)) fun r => ?_
      cases r with
      | ok _ => exact .done _
      | error e => exact ih (made + 1) hjob
  unfold processJob
  refine Proc.always_call_bind hother fun taken htaken => ?_
  cases taken with
  | none => exact .done _
  | some job => exact hattempts job _ _ (htaken job rfl)

theorem dispatchTo_elsewhere (config : WebhookConfig) (i : ℕ) (eventName payload : String)
    (id : DeliveryId) (targets : List WebhookEndpoint) : ∀ n,
    (dispatchTo config i eventName payload n targets).Issues (Elsewhere id) := by
  induction targets with
  | nil => exact fun _ => Proc.issues_done _
  | cons endpoint targets ih =>
    intro n
    unfold dispatchTo
    refine Proc.issues_bind (Proc.issues_call.mpr rfl) fun delivery => ?_
    exact Proc.issues_bind (Proc.issues_call.mpr trivial) fun _ => ih (n + 1)

theorem manualRetry_elsewhere (deliveryId id : DeliveryId) :
    (manualRetry deliveryId).Issues (Elsewhere id) := by
  unfold manualRetry
  refine Proc.issues_bind (Proc.issues_call.mpr trivial) fun found => ?_
  cases found with
  | none => exact Proc.issues_done _
  | some delivery =>
    refine Proc.issues_bind (Proc.issues_call.mpr trivial) fun now => ?_
    split
    · exact Proc.issues_call.mpr (Or.inr rfl)
    · exact Proc.issues_call.mpr (Or.inr rfl)

end Jobs

-- ---------------------------------------------------------------------------
-- All calls together
-- ---------------------------------------------------------------------------

/-- The calls that may work on the delivery. -/
def mayPost (id : DeliveryId) (k : WebhookCall) : Bool :=
  decide (k = .retryFailedDeliveries ∨ k = .processJob id)

/-- What the first step of a call finds when it takes the delivery. -/
def Takes (id : DeliveryId) : WebhookCall → WebhookDb → Prop
  | .retryFailedDeliveries, st => ∃ delivery ∈ st.findDue, delivery.id = id
  | .processJob _, st => (st.waiting id).isSome = true
  | _, _ => False

section Custody

variable {config : WebhookConfig} {sign : String → Body → String} {id : DeliveryId}
  {st st' : WebhookDb}

/-- A run takes what is FAILED, and so has a job behind it and no success. -/
theorem Sound.due (h : Sound id st) {delivery : WebhookDelivery} (hdue : delivery ∈ st.findDue)
    (hid : delivery.id = id) : Unanswered id (· = some .failed) st := by
  subst hid
  obtain ⟨hfound, hfailed, -⟩ := mem_findDue hdue
  have hstatus : st.statusOf delivery.id = some .failed := by
    rw [WebhookDb.statusOf, hfound, Option.map_some, hfailed]
  refine ⟨⟨h.toSafe, ?_, hstatus⟩, fun ha => ?_⟩
  · by_contra hnot
    have hwaiting := h.waiting hnot
    rw [hstatus] at hwaiting
    simp at hwaiting
  · have hdelivered := h.answered ha
    rw [hstatus] at hdelivered
    cases hdelivered

/-- A job takes what nobody has worked on. -/
theorem Sound.take (h : Sound id st) (hnot : id ∉ st.taken) :
    Unanswered id Open { st with taken := id :: st.taken } := by
  have hopen : Open (st.statusOf id) := h.waiting hnot
  refine ⟨⟨⟨h.quiet, h.stored⟩, List.mem_cons_self .., hopen⟩, fun ha => ?_⟩
  have hdelivered := h.answered ha
  rcases hopen with hnone | hpending
  · rw [hnone] at hdelivered
    cases hdelivered
  · rw [hpending] at hdelivered
    cases hdelivered

/-- The calls that work on the delivery never meet. -/
theorem posting_custodial (config : WebhookConfig) (sign : String → Body → String)
    (id : DeliveryId) :
    Custodial (server config sign) recorded (posting id) (mayPost id) (Takes id) Answers
      fun _ _ c => Elsewhere id c where
  exec := rfl
  mayFail := rfl
  refl := Rely.refl id
  trans _ _ _ h h' := h.trans h'
  safe _ h := h.toSafe
  rest _ _ h hr := h.rely hr
  away _ _ _ _ hc hexec := rely_of_elsewhere hc hexec
  taken i k c next s hk hprog htakes hrest := by
    rcases of_decide_eq_true hk with rfl | rfl
    · -- a run that selects the delivery
      cases hprog
      obtain ⟨delivery, hdue, hid⟩ := htakes
      refine ⟨fun due s' hexec => ?_, fun e => trivial⟩
      have hexec : exec .findDue s = .ok (due, s') := hexec
      cases hexec
      exact retryAll_custody sign (nodup_findDue s) hdue hid (hrest.due hdue hid)
    · -- its job
      cases hprog
      obtain ⟨job, hwaiting⟩ := Option.isSome_iff_exists.mp htakes
      obtain ⟨hnot, hjob⟩ := deliveryId_of_waiting hwaiting
      refine ⟨fun taken s' hexec => ?_, fun e => trivial⟩
      have hexec : exec (.takeJob id) s = .ok (taken, s') := hexec
      simp only [exec, hwaiting] at hexec
      cases hexec
      exact attempts_custody config sign hjob _ 0 _ (Sound.take hrest hnot)
  left i k c next s hk hprog hnot := by
    rcases of_decide_eq_true hk with rfl | rfl
    · cases hprog
      refine ⟨fun due s' hexec => ?_, fun e => trivial⟩
      have hexec : exec .findDue s = .ok (due, s') := hexec
      cases hexec
      exact ⟨Rely.refl id s, retryAll_elsewhere sign fun delivery hdue hid =>
        hnot ⟨delivery, hdue, hid⟩⟩
    · cases hprog
      refine ⟨fun taken s' hexec => ?_, fun e => trivial⟩
      have hexec : exec (.takeJob id) s = .ok (taken, s') := hexec
      have hwaiting : s.waiting id = none := Option.not_isSome_iff_eq_none.mp hnot
      simp only [exec, hwaiting] at hexec
      cases hexec
      exact ⟨Rely.refl id s, trivial⟩
  replied _ _ _ _ h := exec_answers h
  issues i k hk := by
    have hk := of_decide_eq_false hk
    rw [not_or] at hk
    have hissues : ∀ p : WebhookProc Unit, p.Issues (Elsewhere id) →
        p.Always Answers fun c _ => Elsewhere id c :=
      fun p hp => Proc.always_of_issues (fun _ _ h => h) hp
    cases k with
    | dispatchEvent eventName payload =>
      exact hissues _ (Proc.issues_bind (Proc.issues_call.mpr trivial) fun _ =>
        dispatchTo_elsewhere config i eventName payload id _ 0)
    | processJob other =>
      exact processJob_elsewhere config sign fun heq => hk.2 (congrArg _ heq)
    | retryFailedDeliveries => exact absurd rfl hk.1
    | manualRetry other => exact hissues _ (manualRetry_elsewhere other id)
    | setEndpoints endpoints => exact hissues _ (Proc.issues_call.mpr trivial)
    | tick ms => exact hissues _ (Proc.issues_call.mpr trivial)
  others _ _ _ _ _ _ _ hc hexec := rely_of_elsewhere hc hexec
  allows _ _ _ _ _ _ hD := hD.1
  alone cfg th c f hinside hbegun hD htakes j th' hth' hinside' hbegun' := by
    rcases of_decide_eq_true hinside with hcall | hcall
    · rw [hcall] at htakes
      obtain ⟨delivery, hdue, rfl⟩ := htakes
      rcases of_decide_eq_true hinside' with hcall' | hcall'
      · exact Or.inr (hD.2 hcall hbegun delivery hdue j th' hth' hcall' hbegun')
      · -- a job has what is PENDING
        refine Or.inl fun hheld => ?_
        rw [hcall'] at hheld
        obtain ⟨hfound, hfailed, -⟩ := mem_findDue hdue
        have hopen := hheld.2
        rw [WebhookDb.statusOf, hfound, Option.map_some, hfailed] at hopen
        simp at hopen
    · -- while the job waits, nobody has it
      rw [hcall] at htakes
      obtain ⟨job, hwaiting⟩ := Option.isSome_iff_exists.mp htakes
      have hnot := (deliveryId_of_waiting hwaiting).1
      refine Or.inl fun hheld => ?_
      rcases of_decide_eq_true hinside' with hcall' | hcall'
      · rw [hcall'] at hheld
        exact hnot hheld
      · rw [hcall'] at hheld
        exact hnot hheld.1

/-- The log grows. -/
theorem log_exec {c : WebhookCmd} {a : c.Reply} (h : exec c st = .ok (a, st')) :
    st.log <+: st'.log := by
  cases c with
  | insert delivery =>
    simp only [exec, WebhookDb.insert] at h
    split at h
    · cases h
    · rename_i hinsert
      split at hinsert
      · cases hinsert
      · cases hinsert
        cases h
        rw [log_save]
        exact List.prefix_append _ _
  | takeJob id =>
    simp only [exec] at h
    split at h <;> cases h <;> exact List.prefix_rfl
  | save delivery =>
    cases h
    rw [log_save]
    exact List.prefix_append _ _
  | send request =>
    cases h
    exact List.prefix_append _ _
  | answer id =>
    cases h
    exact List.prefix_append _ _
  | update id patch =>
    cases h
    rw [log_update]
    exact List.prefix_append _ _
  | _ =>
    cases h
    exact List.prefix_rfl

/-- **A delivery is posted once.** -/
theorem delivered_once {endpoints : List WebhookEndpoint} {net : ℕ → Answer Thrown} {now : Time}
    {cfg₀ cfg : WebhookPool}
    (h₀ : Reach (server config sign) recorded ⟨start endpoints net now, []⟩ cfg₀)
    (h : Reach (server config sign) recorded cfg₀ cfg) : DeliveredOnce cfg₀ cfg := by
  have hsafe : ∀ id cfg, Reach (server config sign) recorded ⟨start endpoints net now, []⟩ cfg →
      Safe id cfg.state := by
    intro id cfg hreach
    have hstart : Sound id (start endpoints net now) := by
      have hnone : (start endpoints net now).statusOf id = none := rfl
      have hlog : (start endpoints net now).log = [] := rfl
      refine ⟨⟨fun earlier later hsplit => ?_, ?_⟩, fun ha => ?_, fun _ => Or.inl hnone⟩
      · rw [hlog] at hsplit
        simp at hsplit
      · rw [hlog, hnone]
        simp
      · rw [hlog] at ha
        cases ha
    have hcustody := Reach.custody (posting_custodial config sign id) rfl (by exact hstart) hreach
    exact hcustody.1
  refine ⟨fun id => (hsafe id cfg (h₀.trans h)).quiet, fun id row hrow hstatus => ?_⟩
  -- it is noted in the log
  have hnoted : .stored id ∈ cfg₀.state.log := by
    rw [(hsafe id cfg₀ h₀).stored, WebhookDb.statusOf, hrow, Option.map_some, hstatus]
  have hkept : .stored id ∈ cfg.state.log := by
    refine h.invariant (I := fun cfg => .stored id ∈ cfg.state.log) hnoted
      (fun cfg i k hmem _ _ => hmem) fun cfg i fault th c next hmem hth hproc _ _ _ => ?_
    show .stored id ∈ (after _ cfg.state).log
    cases hout : outcome fault ((server config sign).exec c cfg.state) with
    | error e => exact hmem
    | ok r =>
      obtain ⟨a, s'⟩ := r
      exact (log_exec (outcome_eq_ok hout).2).subset hmem
  have hdelivered := (hsafe id cfg (h₀.trans h)).stored.mp hkept
  rw [WebhookDb.statusOf, Option.map_eq_some_iff] at hdelivered
  exact hdelivered

end Custody

-- ---------------------------------------------------------------------------
-- One delivery, posted and retried
-- ---------------------------------------------------------------------------

def shopEndpoint : WebhookEndpoint := ⟨0, "https://shop.example/hook", "secret", ["order"], true⟩

/-- The answers in order, each after 100 ms; then success. -/
def answering (answers : List (Except Thrown ℕ)) (n : ℕ) : Answer Thrown :=
  ⟨answers.getD n (.ok 200), 100⟩

def refused : Except Thrown ℕ := .error ⟨some "Request failed with status code 500", some 500⟩

def signed (secret : String) (body : Body) : String := secret ++ body.event

def opening (answers : List (Except Thrown ℕ)) : WebhookPool :=
  ⟨start [shopEndpoint] (answering answers) 0, []⟩

/-- The server, with so many attempts for each job. -/
abbrev shopServer (maxAttempts : ℕ) := server { maxAttempts := maxAttempts } signed

/-- The call makes so many steps. -/
def alone (i : ℕ) (k : WebhookCall) (steps : ℕ) : List (Event WebhookCall Thrown) :=
  .call i k :: List.replicate steps (.step i none)

/-- The job fails, and a retry by hand makes the delivery due. -/
def failedOnce : List (Event WebhookCall Thrown) :=
  alone 0 (.dispatchEvent "order" "1") 3 ++ alone 1 (.processJob (0, 0)) 10 ++
    alone 2 (.manualRetry (0, 0)) 3

instance : DecidablePred WebhookCmd.RecordsSuccess
  | .save delivery => inferInstanceAs (Decidable (delivery.status = .delivered))
  | .update _ patch => inferInstanceAs (Decidable (patch.status = some .delivered))
  | .findActive | .insert _ | .addJob _ _ | .takeJob _ | .findDelivery _ | .findEndpoint _
  | .now | .send _ | .answer _ | .findDue | .setEndpoints _ | .tick _ =>
    inferInstanceAs (Decidable False)

/-- Every run starts while nothing is on its way. -/
def inTurn (cfg : WebhookPool) (th : Thread WebhookCall WebhookCmd WebhookCmd.Reply Thrown Unit)
    (c : WebhookCmd) (failed : Bool) : Bool :=
  (!failed || !decide c.RecordsSuccess) && (th.begun || cfg.idle)

theorem recorded_of_inTurn {cfg : WebhookPool}
    {th : Thread WebhookCall WebhookCmd WebhookCmd.Reply Thrown Unit} {c : WebhookCmd}
    {failed : Bool} (h : inTurn cfg th c failed = true) : recorded.onStep cfg th c failed := by
  simp only [inTurn, Bool.and_eq_true, Bool.or_eq_true, Bool.not_eq_true',
    decide_eq_false_iff_not] at h
  refine ⟨fun hrecords => h.1.resolve_right (not_not.mpr hrecords), ?_⟩
  intro _ hbegun delivery _ j th' hth' _ hbegun'
  have hidle := h.2.resolve_left (by simp [hbegun])
  have hended := Config.vacant_of_idle hidle (fun _ => true) j th' hth' rfl
  rw [Config.inProgress, hth'] at hended
  -- what is not in progress has no commands left
  cases hproc : th'.proc with
  | done r => trivial
  | await c next => simp [hbegun', hproc, Proc.isDone] at hended

/-- The status of the delivery, and how often it was posted. -/
def posted (cfg : WebhookPool) : Option WebhookDeliveryStatus × ℕ :=
  (cfg.state.statusOf (0, 0), cfg.state.log.countP fun e => decide (e = .sent (0, 0)))

theorem delivered_once_retried :
    ∃ cfg₀ cfg, Reach (shopServer 1) recorded (opening [refused]) cfg₀ ∧
      Reach (shopServer 1) recorded cfg₀ cfg ∧ DeliveredOnce cfg₀ cfg ∧
      posted cfg₀ = (some .failed, 1) ∧ posted cfg = (some .delivered, 2) := by
  have hfailed : ((shopServer 1).runChecked inTurn (opening [refused]) failedOnce).map posted =
      some (some .failed, 1) := by decide +kernel
  obtain ⟨cfg₀, hcfg₀, hposted₀⟩ := Option.map_eq_some_iff.mp hfailed
  have hretried : ((shopServer 1).runChecked inTurn (opening [refused]) failedOnce).bind
      (fun cfg => ((shopServer 1).runChecked inTurn cfg (alone 3 .retryFailedDeliveries 7)).map
        posted) = some (some .delivered, 2) := by decide +kernel
  rw [hcfg₀, Option.bind_some] at hretried
  obtain ⟨cfg, hcfg, hposted⟩ := Option.map_eq_some_iff.mp hretried
  have h₀ : Reach (shopServer 1) recorded (opening [refused]) cfg₀ :=
    Reach.refl.of_runChecked (fun _ _ _ _ => trivial) (fun _ _ _ _ h => recorded_of_inTurn h) hcfg₀
  have h : Reach (shopServer 1) recorded cfg₀ cfg :=
    Reach.refl.of_runChecked (fun _ _ _ _ => trivial) (fun _ _ _ _ h => recorded_of_inTurn h) hcfg
  exact ⟨cfg₀, cfg, h₀, h, delivered_once h₀ h, hposted₀, hposted⟩

/-- The save that records the success of the first attempt fails. -/
def unrecorded : List (Event WebhookCall Thrown) :=
  alone 0 (.dispatchEvent "order" "1") 3 ++ alone 1 (.processJob (0, 0)) 10 ++
    .step 1 (some ⟨some "connection lost", none⟩) :: List.replicate 8 (.step 1 none)

/-- Two runs select the delivery; the first goes to its end, and the other to its POST. -/
def selectedTwice : List (Event WebhookCall Thrown) :=
  failedOnce ++ [.call 3 .retryFailedDeliveries, .call 4 .retryFailedDeliveries, .step 3 none,
    .step 4 none] ++ List.replicate 6 (.step 3 none)

/-- A request follows a success; and what is DELIVERED becomes FAILED. -/
theorem posted_again :
    (∃ cfg, Reach (shopServer 2) .free (opening []) cfg ∧ ¬ DeliveredOnce (opening []) cfg) ∧
    ∃ cfg₀ cfg, Reach (shopServer 1) .free (opening [refused, .ok 200, refused]) cfg₀ ∧
      Reach (shopServer 1) .free cfg₀ cfg ∧ ¬ DeliveredOnce cfg₀ cfg := by
  constructor
  · refine ⟨_, Reach.refl.play unrecorded, fun h => ?_⟩
    have hlog : ((shopServer 2).play (opening []) unrecorded).state.log =
        [.sent (0, 0)] ++ .answered (0, 0) ::
          [.stored (0, 0), .stored (0, 0), .sent (0, 0)] := by decide +kernel
    exact h.posts (0, 0) _ _ hlog (by simp)
  · refine ⟨_, _, Reach.refl.play selectedTwice, Reach.refl.play (List.replicate 6 (.step 4 none)),
      fun h => ?_⟩
    have hstored : ((shopServer 1).play (opening [refused, .ok 200, refused])
        selectedTwice).state.statusOf (0, 0) = some .delivered := by decide +kernel
    obtain ⟨row, hrow, hstatus⟩ := Option.map_eq_some_iff.mp hstored
    obtain ⟨row', hrow', hstatus'⟩ := h.final (0, 0) row hrow hstatus
    have hfailed : ((shopServer 1).play ((shopServer 1).play (opening [refused, .ok 200, refused])
        selectedTwice) (List.replicate 6 (.step 4 none))).state.statusOf (0, 0) =
          some .failed := by decide +kernel
    rw [WebhookDb.statusOf, hrow', Option.map_some, hstatus'] at hfailed
    cases hfailed

end Webhooks

end NexaFx
