import NexaFx.Lib.Journal
import NexaFx.Model.WebhookDispatch

/-!
# NexaFx — what a dispatch does

A dispatch asks once which subscriptions receive the event and serves them one
after the other, in the order found: each gets one delivery and at most one
request, and ends as delivered, or as failed with a notification. A dispatch
that throws has served the first of them only; one that returns has served all.

* `Round` — what serving one subscription writes;
* `Served` — some of the subscriptions have been served, the last one perhaps in
  part;
* `dispatch_serves` — every dispatch does so, in every interleaving with other
  dispatches and with changes of the subscriptions, and no delivery is stored as
  delivered but after an answer to its request.
-/

namespace NexaFx

open Async Async.Proc

namespace Dispatcher

/-- What serving one subscription writes, from the delivery to its end. An answer
may have come before the failure. -/
inductive Round (setup : Setup) (i : ℕ) (eventName payload : String) (sub : WebhookSubscription) :
    List Act → Prop where
  | delivered (t t' t₁ : Time) (httpStatus : ℕ) : Round setup i eventName payload sub
      [.saved (opened setup i sub eventName payload t t'),
        .answered (request setup i sub eventName payload t) httpStatus,
        .updated (i, sub.id) (deliveredPatch 0 httpStatus t₁)]
  | failed (t t' t₁ t₂ t₃ : Time) (err : Thrown) (answers : List Act)
      (hanswers : answers = [] ∨
        ∃ httpStatus, answers = [.answered (request setup i sub eventName payload t) httpStatus]) :
      Round setup i eventName payload sub
        (.saved (opened setup i sub eventName payload t t') :: answers ++
          [.updated (i, sub.id) (failedPatch 0 err t₁ t₂),
            .notified (failure i sub eventName err t₃)])

/-- The first subscriptions have been served, the next one perhaps in part. -/
def Served (setup : Setup) (i : ℕ) (eventName payload : String) :
    List WebhookSubscription → List Act → Prop
  | [], l => l = []
  | sub :: subs, l => (∃ round, Round setup i eventName payload sub round ∧ l <+: round) ∨
      ∃ round rest, Round setup i eventName payload sub round ∧
        Served setup i eventName payload subs rest ∧ l = round ++ rest

/-- All have been served, in order. -/
def ServedAll (setup : Setup) (i : ℕ) (eventName payload : String)
    (subs : List WebhookSubscription) (l : List Act) : Prop :=
  ∃ rounds, List.Forall₂ (Round setup i eventName payload) subs rounds ∧ l = rounds.flatten

/-- Different subscriptions, all of which receive the event. -/
structure Found (eventName : String) (subs : List WebhookSubscription) : Prop where
  receives : ∀ sub ∈ subs, sub.receives eventName = true
  nodup : (subs.map WebhookSubscription.id).Nodup

/-- What a call has been answered and has written. -/
def DispatchCall.Serves (setup : Setup) (i : ℕ) : DispatchCall → List Act → Prop
  | .dispatch eventName payload, l => l = [] ∨ ∃ subs rest, Found eventName subs ∧
      Served setup i eventName payload subs rest ∧ l = .found subs :: rest
  | _, l => l = []

/-- The same at its end. -/
def DispatchCall.Returns (setup : Setup) (i : ℕ) : DispatchCall → Except Thrown Answer →
    List Act → Prop
  | .dispatch eventName payload, .ok answer, l => ∃ subs rest, Found eventName subs ∧
      ServedAll setup i eventName payload subs rest ∧ l = .found subs :: rest ∧
      answer = .sentTo subs.length
  | _, _, _ => True

section Served

variable {setup : Setup} {i : ℕ} {eventName payload : String} {subs : List WebhookSubscription}
  {l : List Act}

/-- Nothing yet. -/
theorem served_nil (subs : List WebhookSubscription) :
    Served setup i eventName payload subs [] := by
  cases subs with
  | nil => rfl
  | cons sub subs => exact Or.inl ⟨_, .delivered 0 0 0 0, List.nil_prefix⟩

theorem served_of_all (h : ServedAll setup i eventName payload subs l) :
    Served setup i eventName payload subs l := by
  obtain ⟨rounds, hall, rfl⟩ := h
  induction hall with
  | nil => rfl
  | cons hround _ ih => exact Or.inr ⟨_, _, hround, ih, rfl⟩

/-- What is written belongs to the round of a subscription. -/
theorem Served.round_of_mem (h : Served setup i eventName payload subs l) {act : Act}
    (hact : act ∈ l) :
    ∃ sub ∈ subs, ∃ round part, Round setup i eventName payload sub round ∧ part <+: round ∧
      act ∈ part ∧ part.Sublist l := by
  induction subs generalizing l with
  | nil =>
    rw [show l = [] from h] at hact
    cases hact
  | cons sub subs ih =>
    rcases h with ⟨round, hround, hpart⟩ | ⟨round, rest, hround, hrest, rfl⟩
    · exact ⟨sub, List.mem_cons_self .., round, l, hround, hpart, hact, List.Sublist.refl l⟩
    · rcases List.mem_append.mp hact with hact | hact
      · exact ⟨sub, List.mem_cons_self .., round, round, hround, List.prefix_refl _, hact,
          List.sublist_append_left ..⟩
      · obtain ⟨sub', hsub', round', part, hround', hpart, hmem, hsub⟩ := ih hrest hact
        exact ⟨sub', List.mem_cons_of_mem _ hsub', round', part, hround', hpart, hmem,
          hsub.trans (List.sublist_append_right ..)⟩

end Served

-- ---------------------------------------------------------------------------
-- One command
-- ---------------------------------------------------------------------------

/-- What a command notes of call `i`. -/
def DispatchCmd.acts (i : ℕ) : (c : DispatchCmd) → c.Reply → List Act
  | .findActive call _, subs => if call = i then [.found subs] else []
  | .saveDelivery call delivery, _ => if call = i then [.saved delivery] else []
  | .post call request, httpStatus => if call = i then [.answered request httpStatus] else []
  | .updateDelivery call id patch, _ => if call = i then [.updated id patch] else []
  | .notify call notification, _ => if call = i then [.notified notification] else []
  | _, _ => []

/-- What a command is answered with. -/
def Answers : (c : DispatchCmd) → c.Reply → Prop
  | .findActive _ eventName, subs => Found eventName subs
  | .saveDelivery _ delivery, saved => saved = delivery
  | _, _ => True

section Commands

variable {i : ℕ} {db db' : DispatchDb} {c : DispatchCmd} {a : c.Reply}

theorem actsOf_note (db : DispatchDb) (call : ℕ) (act : Act) :
    (db.note call act).actsOf i = db.actsOf i ++ if call = i then [act] else [] := by
  rw [DispatchDb.actsOf, DispatchDb.note, List.filter_append, List.map_append, ← DispatchDb.actsOf]
  congr 1
  by_cases h : call = i
  · rw [if_pos h, List.filter_cons_of_pos (by simpa using h)]
    rfl
  · rw [if_neg h, List.filter_cons_of_neg (by simpa using h)]
    rfl

theorem exec_actsOf (h : exec c db = .ok (a, db')) : db'.actsOf i = db.actsOf i ++ c.acts i a := by
  cases c with
  | insertSubscription sub | saveSubscription sub =>
    simp only [exec] at h
    split at h
    · cases h
    · cases h
      exact (List.append_nil _).symm
  | updateSubscription id dto =>
    simp only [exec] at h
    split at h
    · cases h
      exact (List.append_nil _).symm
    · split at h
      · cases h
      · cases h
        exact (List.append_nil _).symm
  | findSubscription | now | tick =>
    cases h
    exact (List.append_nil _).symm
  | findActive | notify | post =>
    cases h
    exact actsOf_note ..
  | saveDelivery call delivery =>
    simp only [exec] at h
    split at h
    · cases h
    · cases h
      exact actsOf_note ..
  | updateDelivery call id patch =>
    simp only [exec] at h
    split at h
    · cases h
      exact actsOf_note ..
    · cases h
      exact actsOf_note ..

theorem exec_answers (h : exec c db = .ok (a, db')) : Answers c a := by
  cases c with
  | findActive call eventName =>
    cases h
    exact ⟨fun sub hsub => (List.mem_filter.mp hsub).2,
      Table.nodup_filter WebhookSubscription.id db.keyed _⟩
  | saveDelivery call delivery =>
    simp only [exec] at h
    split at h
    · cases h
    · cases h
      rfl
  | _ => trivial

end Commands

-- ---------------------------------------------------------------------------
-- One subscription
-- ---------------------------------------------------------------------------

section Send

variable {setup : Setup} {i : ℕ} {eventName payload : String} {sub : WebhookSubscription}
  {P : List Act → Prop} {l : List Act}

/-- The end of a round that fails. -/
theorem giveUp_journals {t t' : Time} {answers : List Act} {err : Thrown}
    {delivery : WebhookDelivery}
    (hdelivery : delivery = opened setup i sub eventName payload t t')
    (hanswers : answers = [] ∨
      ∃ httpStatus, answers = [.answered (request setup i sub eventName payload t) httpStatus])
    (hP : ∀ round part, Round setup i eventName payload sub round → part <+: round →
      P (l ++ part)) :
    (giveUp i sub eventName delivery err).Journals Answers (DispatchCmd.acts i) P
      (fun r l' => r = .ok () →
        ∃ round, Round setup i eventName payload sub round ∧ l' = l ++ round)
      (l ++ .saved delivery :: answers) := by
  subst hdelivery
  have hround := fun t₁ t₂ t₃ => Round.failed t t' t₁ t₂ t₃ err answers hanswers
  have hbefore : P (l ++ .saved (opened setup i sub eventName payload t t') :: answers) :=
    hP _ _ (hround 0 0 0) (List.prefix_append _ _)
  have hquiet : (await .now).Issues fun c => ∀ a, c.acts i a = [] := issues_call.mpr fun _ => rfl
  refine journals_quiet_bind hquiet hbefore (fun t₁ => ?_) fun e he => by cases he
  refine journals_quiet_bind hquiet hbefore (fun t₂ => ?_) fun e he => by cases he
  have hupdated : P (l ++ .saved (opened setup i sub eventName payload t t') :: answers ++
      [.updated (i, sub.id) (failedPatch 0 err t₁ t₂)]) := by
    rw [List.append_assoc]
    refine hP _ _ (hround t₁ t₂ 0) ?_
    exact (List.prefix_append_right_inj _).mpr (List.prefix_append _ _)
  refine journals_bind (journals_call hbefore (fun _ _ => ?_) fun e he => by cases he)
  rw [show (DispatchCmd.updateDelivery i _ _).acts i _ = _ from if_pos rfl]
  refine ⟨hupdated, journals_quiet_bind hquiet hupdated (fun t₃ => ?_) fun e he => by cases he⟩
  refine journals_call hupdated (fun _ _ => ?_) fun e he => by cases he
  rw [show (DispatchCmd.notify i _).acts i _ = _ from if_pos rfl, List.append_assoc,
    List.append_assoc]
  exact ⟨hP _ _ (hround t₁ t₂ t₃) (List.prefix_refl _), fun _ => ⟨_, hround t₁ t₂ t₃, rfl⟩⟩

/-- The `try` block, and what becomes of it. -/
theorem attemptDelivery_journals {t t' : Time} {delivery : WebhookDelivery}
    (hdelivery : delivery = opened setup i sub eventName payload t t')
    (hP : ∀ round part, Round setup i eventName payload sub round → part <+: round →
      P (l ++ part)) :
    (attemptDelivery setup i sub eventName payload t delivery).Journals Answers
      (DispatchCmd.acts i) P
      (fun r l' => (r = .ok () →
          ∃ round, Round setup i eventName payload sub round ∧ l' = l ++ round) ∧
        ∀ err, r = .error err → ∃ answers, (answers = [] ∨ ∃ httpStatus,
          answers = [.answered (request setup i sub eventName payload t) httpStatus]) ∧
          l' = l ++ .saved delivery :: answers)
      (l ++ [.saved delivery]) := by
  subst hdelivery
  have hround := fun httpStatus t₁ =>
    @Round.delivered setup i eventName payload sub t t' t₁ httpStatus
  have hsaved : P (l ++ [.saved (opened setup i sub eventName payload t t')]) :=
    hP _ _ (hround 0 0) (List.prefix_append _ _)
  refine journals_bind (journals_call hsaved (fun httpStatus _ => ?_) fun e => ?_)
  · rw [show (DispatchCmd.post i _).acts i _ = _ from if_pos rfl, List.append_assoc]
    have hanswered : P (l ++ ([.saved (opened setup i sub eventName payload t t')] ++
        [.answered (request setup i sub eventName payload t) httpStatus])) :=
      hP _ _ (hround httpStatus 0) (List.prefix_append _ _)
    have hlost : ∃ answers : List Act, (answers = [] ∨ ∃ httpStatus,
        answers = [.answered (request setup i sub eventName payload t) httpStatus]) ∧
        l ++ ([.saved (opened setup i sub eventName payload t t')] ++
          [.answered (request setup i sub eventName payload t) httpStatus]) =
        l ++ .saved (opened setup i sub eventName payload t t') :: answers :=
      ⟨_, Or.inr ⟨httpStatus, rfl⟩, rfl⟩
    refine ⟨hanswered, journals_quiet_bind (issues_call.mpr fun _ => rfl) hanswered (fun t₁ => ?_)
      fun e => ⟨fun he => (by cases he), fun _ _ => hlost⟩⟩
    refine journals_call hanswered (fun _ _ => ?_) fun e =>
      ⟨fun he => (by cases he), fun _ _ => hlost⟩
    rw [show (DispatchCmd.updateDelivery i _ _).acts i _ = _ from if_pos rfl, List.append_assoc]
    exact ⟨hP _ _ (hround httpStatus t₁) (List.prefix_refl _),
      fun _ => ⟨_, hround httpStatus t₁, rfl⟩, fun err he => by cases he⟩
  · exact ⟨fun he => (by cases he), fun _ _ => ⟨[], Or.inl rfl, rfl⟩⟩

theorem sendToSubscription_journals
    (hP : ∀ round part, Round setup i eventName payload sub round → part <+: round →
      P (l ++ part)) :
    (sendToSubscription setup i sub eventName payload).Journals Answers (DispatchCmd.acts i) P
      (fun r l' => r = .ok () →
        ∃ round, Round setup i eventName payload sub round ∧ l' = l ++ round)
      l := by
  have hnil : P l := by
    have hnil := hP _ [] (Round.delivered 0 0 0 0) List.nil_prefix
    rwa [List.append_nil] at hnil
  have hquiet : (await .now).Issues fun c => ∀ a, c.acts i a = [] := issues_call.mpr fun _ => rfl
  refine journals_quiet_bind hquiet hnil (fun t => ?_) fun e he => by cases he
  refine journals_quiet_bind hquiet hnil (fun t' => ?_) fun e he => by cases he
  refine journals_bind (journals_call hnil (fun delivery hdelivery => ?_) fun e he => by cases he)
  rw [show (DispatchCmd.saveDelivery i _).acts i _ = _ from if_pos rfl]
  obtain rfl : delivery = opened setup i sub eventName payload t t' := hdelivery
  refine ⟨?_, journals_try_bind (journals_mono ?_ (attemptDelivery_journals rfl hP))⟩
  · exact hP _ _ (Round.delivered t t' 0 0) (List.prefix_append _ _)
  · rintro r l' ⟨hok, herror⟩
    cases r with
    | ok u =>
      refine ⟨?_, fun _ => hok rfl⟩
      obtain ⟨round, hround, rfl⟩ := hok rfl
      exact hP _ _ hround (List.prefix_refl _)
    | error err =>
      obtain ⟨answers, hanswers, rfl⟩ := herror err rfl
      exact giveUp_journals rfl hanswers hP

theorem sendToAll_journals {subs : List WebhookSubscription}
    (hP : ∀ part, Served setup i eventName payload subs part → P (l ++ part)) :
    (sendToAll setup i eventName payload subs).Journals Answers (DispatchCmd.acts i) P
      (fun r l' => r = .ok () → ∃ rest, ServedAll setup i eventName payload subs rest ∧
        l' = l ++ rest) l := by
  induction subs generalizing l with
  | nil =>
    have hnil := hP [] rfl
    rw [List.append_nil] at hnil
    exact ⟨hnil, fun _ => ⟨[], ⟨[], .nil, rfl⟩, (List.append_nil l).symm⟩⟩
  | cons sub subs ih =>
    refine journals_bind (journals_mono ?_ (sendToSubscription_journals
      fun round part hround hpart => hP part (Or.inl ⟨round, hround, hpart⟩)))
    intro r l' hr
    cases r with
    | error err =>
      intro he
      cases he
    | ok u =>
      obtain ⟨round, hround, rfl⟩ := hr rfl
      refine journals_mono ?_ (ih fun part hpart => ?_)
      · intro r l' h hr
        obtain ⟨rest, ⟨rounds, hall, rfl⟩, rfl⟩ := h hr
        exact ⟨_, ⟨round :: rounds, .cons hround hall, rfl⟩, List.append_assoc ..⟩
      · rw [List.append_assoc]
        exact hP _ (Or.inr ⟨round, part, hround, hpart, rfl⟩)

end Send

-- ---------------------------------------------------------------------------
-- One call
-- ---------------------------------------------------------------------------

section Calls

variable (setup : Setup) {i : ℕ}

theorem dispatch_journals (eventName payload : String) :
    (prog setup i (.dispatch eventName payload)).Journals Answers (DispatchCmd.acts i)
      ((DispatchCall.dispatch eventName payload).Serves setup i)
      ((DispatchCall.dispatch eventName payload).Returns setup i) [] := by
  have hnil : (DispatchCall.dispatch eventName payload).Serves setup i [] := Or.inl rfl
  refine journals_bind (journals_bind (journals_call hnil (fun subs hfound => ?_)
    fun e => trivial))
  rw [show (DispatchCmd.findActive i _).acts i _ = _ from if_pos rfl]
  have hserves : ∀ part, Served setup i eventName payload subs part →
      (DispatchCall.dispatch eventName payload).Serves setup i ([.found subs] ++ part) :=
    fun part hpart => Or.inr ⟨subs, part, hfound, hpart, rfl⟩
  have hstart := hserves [] (served_nil subs)
  refine ⟨hstart, journals_bind (journals_mono ?_ (sendToAll_journals hserves))⟩
  intro r l hr
  cases r with
  | error err => trivial
  | ok u =>
    obtain ⟨rest, hall, rfl⟩ := hr rfl
    have hserved := hserves rest (served_of_all hall)
    exact ⟨hserved, hserved, subs, rest, hfound, hall, rfl, rfl⟩

theorem normalizeEvents_acts (events : List String) (j : ℕ) :
    (normalizeEvents setup events).Issues fun c => ∀ a, c.acts j a = [] := by
  unfold normalizeEvents
  dsimp only
  split
  · exact issues_throw _
  · exact issues_done _

/-- The calls that are no dispatch note nothing. -/
theorem quiet_acts (j : ℕ) (k : DispatchCall)
    (hk : ∀ eventName payload, k ≠ .dispatch eventName payload) :
    (prog setup i k).Issues fun c => ∀ a, c.acts j a = [] := by
  cases k with
  | create url events userId secret =>
    refine issues_bind (issues_bind (normalizeEvents_acts setup events j) fun _ => ?_) fun _ => ?_
    · exact issues_call.mpr fun _ => rfl
    · exact issues_done _
  | toggle id =>
    refine issues_bind (issues_bind (issues_call.mpr fun _ => rfl) fun found => ?_) fun _ => ?_
    · cases found with
      | none => exact issues_throw _
      | some sub => exact issues_call.mpr fun _ => rfl
    · exact issues_done _
  | update id dto =>
    refine issues_bind (issues_bind ?_ fun changes => ?_) fun _ => issues_done _
    · unfold normalizeUpdate
      split
      · exact issues_done _
      · exact issues_bind (normalizeEvents_acts setup _ j) fun _ => issues_done _
    · exact issues_bind (issues_call.mpr fun _ => rfl) fun _ => issues_call.mpr fun _ => rfl
  | tick ms => exact issues_bind (issues_call.mpr fun _ => rfl) fun _ => issues_done _
  | dispatch eventName payload => exact absurd rfl (hk eventName payload)

theorem sendToSubscription_acts {j : ℕ} (h : i ≠ j) (sub : WebhookSubscription)
    (eventName payload : String) :
    (sendToSubscription setup i sub eventName payload).Issues fun c => ∀ a, c.acts j a = [] := by
  have hnow : (await .now).Issues fun c => ∀ a, c.acts j a = [] := issues_call.mpr fun _ => rfl
  refine issues_bind hnow fun t => issues_bind hnow fun t' => ?_
  refine issues_bind (issues_call.mpr fun _ => if_neg h) fun delivery => ?_
  refine issues_bind (issues_attempt ?_) fun r => ?_
  · refine issues_bind (issues_call.mpr fun _ => if_neg h) fun httpStatus => ?_
    exact issues_bind hnow fun t₁ => issues_call.mpr fun _ => if_neg h
  · cases r with
    | ok u => exact issues_done _
    | error err =>
      refine issues_bind hnow fun t₁ => issues_bind hnow fun t₂ => ?_
      refine issues_bind (issues_call.mpr fun _ => if_neg h) fun _ => ?_
      exact issues_bind hnow fun t₃ => issues_call.mpr fun _ => if_neg h

/-- A call notes nothing of another. -/
theorem prog_acts {j : ℕ} (h : i ≠ j) (k : DispatchCall) :
    (prog setup i k).Issues fun c => ∀ a, c.acts j a = [] := by
  cases k with
  | dispatch eventName payload =>
    refine issues_bind (issues_bind (issues_call.mpr fun _ => if_neg h) fun subs => ?_)
      fun _ => issues_done _
    refine issues_bind ?_ fun _ => issues_done _
    induction subs with
    | nil => exact issues_done _
    | cons sub subs ih => exact issues_bind (sendToSubscription_acts setup h sub _ _) fun _ => ih
  | create | toggle | update | tick =>
    exact quiet_acts setup j _ fun _ _ hk => by cases hk

theorem prog_journals (i : ℕ) (k : DispatchCall) :
    (prog setup i k).Journals Answers (DispatchCmd.acts i) (k.Serves setup i) (k.Returns setup i)
      [] := by
  cases k with
  | dispatch eventName payload => exact dispatch_journals setup eventName payload
  | create | toggle | update | tick =>
    exact journals_of_issues (quiet_acts setup i _ fun _ _ hk => by cases hk) rfl fun _ => trivial

end Calls

-- ---------------------------------------------------------------------------
-- The table of deliveries
-- ---------------------------------------------------------------------------

/-- The delivery is stored as delivered. -/
def Act.Delivers (id : DeliveryId) : Act → Prop
  | .saved delivery => delivery.id = id ∧ delivery.status = .delivered
  | .updated id' patch => id' = id ∧ patch.status = .delivered
  | _ => False

/-- What is stored as delivered was stored so by a call. -/
def Accounted (db : DispatchDb) : Prop :=
  ∀ row ∈ db.deliveries, row.status = .delivered → ∃ e ∈ db.log, e.2.Delivers row.id

section Stored

variable {db db' : DispatchDb}

theorem Accounted.of_deliveries (h : Accounted db) (hrows : db'.deliveries = db.deliveries)
    (hlog : ∀ e ∈ db.log, e ∈ db'.log) : Accounted db' := by
  intro row hrow hstatus
  rw [hrows] at hrow
  obtain ⟨e, he, hdelivers⟩ := h row hrow hstatus
  exact ⟨e, hlog e he, hdelivers⟩

/-- A row is written, and the log says so. -/
theorem Accounted.put (h : Accounted db) {delivery : WebhookDelivery} {call : ℕ} {act : Act}
    (hact : delivery.status = .delivered → act.Delivers delivery.id) :
    Accounted ((db.putDelivery delivery).note call act) := by
  intro row hrow hstatus
  rcases Table.mem_put _ hrow with rfl | hold
  · exact ⟨(call, act), List.mem_append_right _ (List.mem_singleton_self _), hact hstatus⟩
  · obtain ⟨e, he, hdelivers⟩ := h row hold hstatus
    exact ⟨e, List.mem_append_left _ he, hdelivers⟩

theorem exec_accounted {c : DispatchCmd} {a : c.Reply} (hexec : exec c db = .ok (a, db'))
    (h : Accounted db) : Accounted db' := by
  cases c with
  | insertSubscription sub | saveSubscription sub =>
    simp only [exec] at hexec
    split at hexec
    · cases hexec
    · cases hexec
      exact h.of_deliveries rfl fun _ he => he
  | updateSubscription id dto =>
    simp only [exec] at hexec
    split at hexec
    · cases hexec
      exact h
    · split at hexec
      · cases hexec
      · cases hexec
        exact h.of_deliveries rfl fun _ he => he
  | findSubscription | now | tick =>
    cases hexec
    exact h.of_deliveries rfl fun _ he => he
  | findActive | notify | post =>
    cases hexec
    exact h.of_deliveries rfl fun _ he => List.mem_append_left _ he
  | saveDelivery call delivery =>
    simp only [exec] at hexec
    split at hexec
    · cases hexec
    · cases hexec
      exact h.put fun hstatus => ⟨rfl, hstatus⟩
  | updateDelivery call id patch =>
    simp only [exec] at hexec
    split at hexec
    · cases hexec
      exact h.of_deliveries rfl fun _ he => List.mem_append_left _ he
    · rename_i delivery hfound
      cases hexec
      exact h.put fun hstatus => ⟨(Table.key_of_get _ hfound).symm, hstatus⟩

end Stored

section Rounds

variable {setup : Setup} {i : ℕ} {eventName payload : String} {sub : WebhookSubscription}
  {subs : List WebhookSubscription} {id : DeliveryId} {act : Act}

/-- A delivery starts as pending. -/
theorem not_delivers_saved {t t' : Time} :
    ¬ (Act.saved (opened setup i sub eventName payload t t')).Delivers id := by
  rintro ⟨-, hstatus⟩
  cases hstatus

/-- In a round, a delivery is stored as delivered after the answer only. -/
theorem Round.answered {round part : List Act} (h : Round setup i eventName payload sub round)
    (hpart : part <+: round) (hact : act ∈ part) (hdelivers : act.Delivers id) :
    id.1 = i ∧ ∃ request httpStatus,
      .answered request httpStatus ∈ part ∧ request.deliveryId = id := by
  cases h with
  | delivered t t' t₁ httpStatus =>
    rcases List.prefix_cons_iff.mp hpart with rfl | ⟨part₁, rfl, hpart₁⟩
    · cases hact
    · rcases List.prefix_cons_iff.mp hpart₁ with rfl | ⟨part₂, rfl, hpart₂⟩
      · rw [List.mem_singleton.mp hact] at hdelivers
        exact absurd hdelivers not_delivers_saved
      · have hid : id = (i, sub.id) := by
          have hmem := hpart.subset hact
          simp only [List.mem_cons, List.not_mem_nil, or_false] at hmem
          rcases hmem with rfl | rfl | rfl
          · exact absurd hdelivers not_delivers_saved
          · exact hdelivers.elim
          · exact hdelivers.1.symm
        subst hid
        exact ⟨rfl, _, httpStatus, List.mem_cons_of_mem _ (List.mem_cons_self ..), rfl⟩
  | failed t t' t₁ t₂ t₃ err answers hanswers =>
    have hmem := hpart.subset hact
    simp only [List.cons_append, List.mem_cons, List.mem_append, List.not_mem_nil, or_false] at hmem
    rcases hmem with rfl | hanswer | rfl | rfl
    · exact absurd hdelivers not_delivers_saved
    · rcases hanswers with rfl | ⟨httpStatus, rfl⟩
      · cases hanswer
      · rw [List.mem_singleton.mp hanswer] at hdelivers
        exact hdelivers.elim
    · cases hdelivers.2
    · exact hdelivers.elim

theorem Served.answered {l : List Act} (h : Served setup i eventName payload subs l)
    (hact : act ∈ l) (hdelivers : act.Delivers id) : id.1 = i ∧ ∃ request httpStatus,
      .answered request httpStatus ∈ l ∧ request.deliveryId = id := by
  obtain ⟨sub, -, round, part, hround, hpart, hmem, hsub⟩ := h.round_of_mem hact
  obtain ⟨hi, request, httpStatus, hanswered, hid⟩ := hround.answered hpart hmem hdelivers
  exact ⟨hi, request, httpStatus, hsub.subset hanswered, hid⟩

theorem DispatchCall.Serves.answered {k : DispatchCall} {l : List Act} (h : k.Serves setup i l)
    (hact : act ∈ l) (hdelivers : act.Delivers id) : id.1 = i ∧ ∃ request httpStatus,
      .answered request httpStatus ∈ l ∧ request.deliveryId = id := by
  have hno : l ≠ [] := by
    rintro rfl
    cases hact
  cases k with
  | dispatch eventName payload =>
    rcases h with hnil | ⟨subs, rest, -, hserved, rfl⟩
    · exact absurd hnil hno
    · rcases List.mem_cons.mp hact with rfl | hrest
      · exact hdelivers.elim
      · obtain ⟨hi, request, httpStatus, hanswered, hid⟩ := hserved.answered hrest hdelivers
        exact ⟨hi, request, httpStatus, List.mem_cons_of_mem _ hanswered, hid⟩
  | create | toggle | update | tick => exact absurd h hno

end Rounds

-- ---------------------------------------------------------------------------
-- All calls
-- ---------------------------------------------------------------------------

section Runs

variable {setup : Setup} {db : DispatchDb} {cfg : DispatchServer}

theorem journals_reach (hlog : db.log = []) (h : Reach (server setup) .free (start db) cfg) :
    (∀ i, cfg.thread i = none → cfg.state.actsOf i = []) ∧
    ∀ i th, cfg.thread i = some th → th.proc.Journals Answers (DispatchCmd.acts i)
      (th.call.Serves setup i) (th.call.Returns setup i) (cfg.state.actsOf i) := by
  have hempty : ∀ i, db.actsOf i = [] := by
    intro i
    rw [DispatchDb.actsOf, hlog]
    rfl
  exact h.journals (fun i db => db.actsOf i) (O := DispatchCmd.acts)
    (P := fun i k => k.Serves setup i) (Q := fun i k => k.Returns setup i) (G := Answers) rfl hempty
    (fun i c s a s' hexec => exec_actsOf hexec) (fun c s a s' hexec => exec_answers hexec)
    (fun i j k hij => prog_acts setup hij k) (prog_journals setup)

theorem accounted_reach (hrows : db.deliveries = [])
    (h : Reach (server setup) .free (start db) cfg) : Accounted cfg.state := by
  refine Reach.invariant (I := fun cfg : DispatchServer => Accounted cfg.state) ?_
    (fun cfg i k hI _ _ => hI) ?_ h
  · intro row hrow
    have hmem : row ∈ db.deliveries := hrow
    rw [hrows] at hmem
    cases hmem
  · intro cfg i fault th c next hI _ _ _ _ _
    show Accounted (after (outcome fault (exec c cfg.state)) cfg.state)
    cases hres : outcome fault (exec c cfg.state) with
    | error e => exact hI
    | ok r => exact exec_accounted (outcome_eq_ok hres).2 hI

def plainSetup : Setup := ⟨fun secret timestamp rawBody => secret ++ timestamp ++ rawBody,
  ["transfer.completed"]⟩

/-- Subscription 4 receives transfers, 5 is disabled. -/
def twoSubscriptions : DispatchDb where
  subscriptions := [⟨4, none, "https://a.example/hook", ["transfer.completed"], "s", true, .active⟩,
    ⟨5, none, "https://b.example/hook", ["transfer.completed"], "t", false, .disabled⟩]
  keyed := by decide
  deliveries := []
  net := fun _ => 200
  served := 0
  now := 2000
  log := []

end Runs

end Dispatcher

end NexaFx
