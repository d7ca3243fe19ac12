import NexaFx.Lib.Exclusive
import NexaFx.Lib.Journal
import NexaFx.Lib.Overlap
import NexaFx.Lib.SlidingWindow
import NexaFx.Model.AdminAlerts

/-!
# NexaFx — alerts for administrators

All alerts, interleaved at every await and any of the awaits failing.

* `alerts_throttled` — in any period as long as the limiter's, no more alerts of
  one type are let through than there are calls for it at once; each call that
  is let through mails its alert at most once and posts it at most once, in that
  order, and a call that is not does neither.
-/

namespace NexaFx

open Async Proc SlidingWindow

namespace Alerts

/-- When alerts of the type were let through. -/
def AlertDb.admitted (db : AlertDb) (type : String) : List Time :=
  (db.log.filter fun e => decide (e.type = type ∧ e.step = .admitted)).map Event.time

/-- What the call has done, in order. -/
def AlertDb.stepsOf (db : AlertDb) (i : ℕ) : List Step :=
  (db.log.filter fun e => decide (e.call = i)).map Event.step

/-- The type of the alert. -/
def AlertCall.type : AlertCall → Option String
  | .sendAlert payload => some payload.type
  | .tick _ => none

/-- The call sends an alert of the type. -/
def contends (type : String) (k : AlertCall) : Bool := decide (k.type = some type)

/-- A call that has not found the entry and is about to set it. -/
def clear (p : AlertProc Unit) : Bool :=
  match p.waitsOn with
  | some (.set _ _ _) => true
  | _ => false

/-- At most `n` calls at once for alerts of one type. -/
def atMost (n : ℕ) : Discipline AlertCall AlertCmd AlertCmd.Reply Err AlertDb Unit where
  onCall cfg _ k := ∀ type, contends type k = true → cfg.underWay (contends type) < n
  onStep _ _ _ _ := True

-- ---------------------------------------------------------------------------
-- The programs
-- ---------------------------------------------------------------------------

/-- What a call does that sends an alert of type `type`. -/
def Follows (config : AlertConfig) (type : Option String) : (c : AlertCmd) →
    (Except Err c.Reply → AlertProc Unit) → Prop
  | .get eventType, next => type = some eventType ∧ ∀ r, clear (next r) = true → r = .ok false
  | .set _ eventType ttl, next =>
    type = some eventType ∧ ttl = config.ttl ∧ ∀ r, clear (next r) = false
  | _, next => ∀ r, clear (next r) = false

section Programs

variable {config : AlertConfig} {i : ℕ} {payload : AdminAlertPayload}

theorem deliver_clear : clear (deliver config i payload) = false := by
  unfold deliver mailAlert postAlert
  split <;> split <;> rfl

theorem postAlert_clear : clear (postAlert config i payload) = false := by
  unfold postAlert
  split <;> rfl

theorem postAlert_follows (type : Option String) :
    (postAlert config i payload).Always (fun _ _ => True)
      fun c next => Follows config type c next := by
  unfold postAlert
  split
  · exact .done _
  · exact .await (fun r => rfl) (fun _ _ => .done _) fun _ => .done _

theorem deliver_follows (type : Option String) :
    (deliver config i payload).Always (fun _ _ => True)
      fun c next => Follows config type c next := by
  show ((mailAlert config i payload).bind fun _ => postAlert config i payload).Always _ _
  unfold mailAlert
  split
  · exact postAlert_follows type
  · refine .await (fun r => ?_) (fun _ _ => postAlert_follows type) fun _ => postAlert_follows type
    exact postAlert_clear

theorem sendAlert_follows : (sendAlert config i payload).Always (fun _ _ => True)
    fun c next => Follows config (some payload.type) c next := by
  refine .await ⟨rfl, fun r hclear => ?_⟩ (fun found _ => ?_) fun _ => .done _
  · rcases r with e | (_ | _)
    · cases hclear
    · rfl
    · cases hclear
  · cases found with
    | true => exact .done _
    | false =>
      refine .await ⟨rfl, rfl, fun r => ?_⟩ (fun _ _ => deliver_follows _) fun _ => .done _
      cases r with
      | error e => rfl
      | ok _ => exact deliver_clear

theorem prog_follows (config : AlertConfig) (i : ℕ) (k : AlertCall) :
    (prog config i k).Always (fun _ _ => True) fun c next => Follows config k.type c next := by
  cases k with
  | sendAlert payload => exact sendAlert_follows
  | tick ms => exact .await (fun r => rfl) (fun _ _ => .done _) fun _ => .done _

end Programs

-- ---------------------------------------------------------------------------
-- The limiter
-- ---------------------------------------------------------------------------

/-- The entry of the type outlives the period of every alert let through. -/
structure Limits (config : AlertConfig) (type : String) (n : ℕ) (db : AlertDb) : Prop where
  past : ∀ t ∈ db.admitted type, t ≤ db.now
  entry : ∀ t ∈ db.admitted type, ∃ entry,
    Table.get Entry.key db.cache (limiterKey type) = some entry ∧
    ∀ e, entry.expires = some e → t + config.ttl ≤ e
  bounded : Bounded n config.ttl (db.admitted type)

/-- The alerts of the current period. -/
def used (config : AlertConfig) (type : String) (db : AlertDb) : ℕ :=
  (recent config.ttl db.now (db.admitted type)).length

section Limiter

variable {config : AlertConfig} {type : String} {n : ℕ} {db db' : AlertDb}

theorem limiterKey_inj {type' : String} (h : limiterKey type = limiterKey type') : type = type' :=
  (String.append_right_inj "admin:alert:ratelimit:").mp h

/-- Where no entry is found, the period of every alert is over. -/
theorem used_of_not_found (h : Limits config type n db)
    (hfound : db.exists_ (limiterKey type) = false) : used config type db = 0 := by
  rw [used, List.length_eq_zero_iff, recent, List.filter_eq_nil_iff]
  intro t ht
  obtain ⟨entry, hentry, hexpires⟩ := h.entry t ht
  rw [AlertDb.exists_, hentry, Option.any_some, Entry.live] at hfound
  split at hfound
  · cases hfound
  · rename_i e he
    have hle := hexpires e he
    have hover := of_decide_eq_false hfound
    simp only [decide_eq_true_eq, not_lt]
    exact hle.trans (not_le.mp hover).le

theorem admitted_note (call : ℕ) (type' : String) (step : Step) :
    (db.note call type' step).admitted type =
      db.admitted type ++ if type' = type ∧ step = .admitted then [db.now] else [] := by
  rw [AlertDb.admitted, AlertDb.note, List.filter_append, List.map_append, ← AlertDb.admitted]
  congr 1
  by_cases h : type' = type ∧ step = .admitted
  · rw [if_pos h, List.filter_cons_of_pos (by simpa using h)]
    rfl
  · rw [if_neg h, List.filter_cons_of_neg (by simpa using h)]
    rfl

/-- Every command but that of a cleared call leaves the alerts let through. -/
theorem exec_admitted {c : AlertCmd} {a : c.Reply} (hexec : exec c db = .ok (a, db'))
    (hset : ∀ call ttl, c ≠ .set call type ttl) :
    db'.admitted type = db.admitted type ∧ db.now ≤ db'.now ∧
    Table.get Entry.key db'.cache (limiterKey type) =
      Table.get Entry.key db.cache (limiterKey type) := by
  cases c with
  | get eventType =>
    cases hexec
    exact ⟨rfl, le_refl _, rfl⟩
  | set call eventType ttl =>
    cases hexec
    have hne : eventType ≠ type := by
      rintro rfl
      exact hset call ttl rfl
    refine ⟨?_, le_refl _, ?_⟩
    · rw [admitted_note, if_neg fun h => hne h.1, List.append_nil]
      rfl
    · refine (Table.get_put ..).trans (if_neg fun h => hne (limiterKey_inj h))
  | sendAdminAlert call eventType mail =>
    cases hexec
    refine ⟨?_, le_refl _, rfl⟩
    rw [admitted_note, if_neg (by simp), List.append_nil]
  | post call eventType message =>
    cases hexec
    refine ⟨?_, le_refl _, rfl⟩
    rw [admitted_note, if_neg (by simp), List.append_nil]
  | tick ms =>
    cases hexec
    exact ⟨rfl, Nat.le_add_right _ _, rfl⟩

theorem used_le (hadmitted : db'.admitted type = db.admitted type) (hnow : db.now ≤ db'.now) :
    used config type db' ≤ used config type db := by
  rw [used, used, hadmitted, ← recent_recent hnow]
  exact List.length_filter_le ..

theorem Limits.later (h : Limits config type n db)
    (hadmitted : db'.admitted type = db.admitted type)
    (hnow : db.now ≤ db'.now) (hcache : Table.get Entry.key db'.cache (limiterKey type) =
      Table.get Entry.key db.cache (limiterKey type)) : Limits config type n db' := by
  refine ⟨?_, ?_, ?_⟩
  · rw [hadmitted]
    exact fun t ht => (h.past t ht).trans hnow
  · rw [hadmitted, hcache]
    exact h.entry
  · rw [hadmitted]
    exact h.bounded

/-- An alert of the type is let through while there is room. -/
theorem Limits.admit (h : Limits config type n db) (hroom : used config type db < n) (call : ℕ) :
    Limits config type n ((db.set (limiterKey type) config.ttl).note call type .admitted) ∧
    used config type ((db.set (limiterKey type) config.ttl).note call type .admitted) ≤
      used config type db + 1 := by
  have hadmitted : ((db.set (limiterKey type) config.ttl).note call type .admitted).admitted type =
      db.admitted type ++ [db.now] := by
    rw [admitted_note, if_pos ⟨rfl, rfl⟩]
    rfl
  refine ⟨⟨?_, ?_, ?_⟩, ?_⟩
  · rw [hadmitted]
    intro t ht
    rcases List.mem_append.mp ht with hold | hnew
    · exact h.past t hold
    · exact (List.mem_singleton.mp hnew).le
  · rw [hadmitted]
    intro t ht
    have hle : t ≤ db.now := by
      rcases List.mem_append.mp ht with hold | hnew
      · exact h.past t hold
      · exact (List.mem_singleton.mp hnew).le
    refine ⟨_, Table.get_put_self Entry.key _ _, fun e he => ?_⟩
    dsimp only at he
    split at he
    · cases he
    · cases he
      exact Nat.add_le_add_right hle _
  · rw [hadmitted]
    exact h.bounded.concat hroom
  · rw [used, hadmitted, recent_append, List.length_append]
    refine Nat.add_le_add_left ?_ _
    exact List.length_filter_le ..

end Limiter

-- ---------------------------------------------------------------------------
-- One step
-- ---------------------------------------------------------------------------

section Steps

variable {config : AlertConfig} {type : String} {n : ℕ} {k : AlertCall} {c : AlertCmd}
  {next : Except Err c.Reply → AlertProc Unit} {db db' : AlertDb}

/-- A failed await does not show the entry missing. -/
theorem clear_of_error (hfollows : Follows config k.type c next) (e : Err) :
    clear (next (.error e)) = false := by
  cases c with
  | get eventType =>
    cases hclear : clear (next (.error e)) with
    | false => rfl
    | true => exact absurd (hfollows.2 _ hclear) (by simp)
  | set call eventType ttl => exact hfollows.2.2 _
  | sendAdminAlert | post | tick => exact hfollows _

theorem step_limits (hfollows : Follows config k.type c next) (h : Limits config type n db)
    (hroom : (contends type k && clear (Proc.await c next)) = true → used config type db < n)
    {a : c.Reply} (hexec : exec c db = .ok (a, db')) :
    Limits config type n db' ∧
    (used config type db' + (if (contends type k && clear (next (.ok a))) = true then 1 else 0) ≤
      used config type db +
        (if (contends type k && clear (Proc.await c next)) = true then 1 else 0) ∨
    used config type db' = 0) := by
  have hstays : (∀ call ttl, c ≠ .set call type ttl) → clear (next (.ok a)) = false →
      Limits config type n db' ∧ (used config type db' +
        (if (contends type k && clear (next (.ok a))) = true then 1 else 0) ≤
      used config type db +
        (if (contends type k && clear (Proc.await c next)) = true then 1 else 0) ∨
      used config type db' = 0) := by
    intro hset hclear
    obtain ⟨hadmitted, hnow, hcache⟩ := exec_admitted hexec hset
    refine ⟨h.later hadmitted hnow hcache, Or.inl ?_⟩
    have hle : used config type db' ≤ used config type db := used_le hadmitted hnow
    rw [hclear, Bool.and_false, if_neg Bool.false_ne_true]
    omega
  cases c with
  | get eventType =>
    cases hclear : (contends type k && clear (next (.ok a))) with
    | false =>
      cases hexec
      exact ⟨h, Or.inl (Nat.add_le_add_left (by simp) _)⟩
    | true =>
      obtain ⟨hcontends, hnext⟩ := Bool.and_eq_true_iff.mp hclear
      have htype : type = eventType :=
        Option.some.inj ((of_decide_eq_true hcontends).symm.trans hfollows.1)
      have hfound := Except.ok.inj (hfollows.2 _ hnext)
      subst htype
      cases hexec
      exact ⟨h, Or.inr (used_of_not_found h hfound)⟩
  | set call eventType ttl =>
    obtain ⟨htype, rfl, hnext⟩ := hfollows
    by_cases heq : eventType = type
    · subst heq
      have hcontends : (contends eventType k &&
          clear (Proc.await (.set call eventType config.ttl) next)) = true := by
        rw [show contends eventType k = true from decide_eq_true htype]
        rfl
      cases hexec
      obtain ⟨hlimits, hle⟩ := h.admit (hroom hcontends) call
      refine ⟨hlimits, Or.inl ?_⟩
      rw [hnext, Bool.and_false, if_neg Bool.false_ne_true, if_pos hcontends]
      exact hle
    · refine hstays (fun call' ttl' hc => ?_) (hnext _)
      cases hc
      exact heq rfl
  | sendAdminAlert call eventType mail =>
    exact hstays (fun _ _ hc => by cases hc) (hfollows _)
  | post call eventType message =>
    exact hstays (fun _ _ hc => by cases hc) (hfollows _)
  | tick ms => exact hstays (fun _ _ hc => by cases hc) (hfollows _)

end Steps

/-- A call that is clear has not ended. -/
theorem running_of_clear (p : AlertProc Unit) (h : clear p = true) : p.isDone = false := by
  cases p with
  | done r => cases h
  | await c next => rfl

theorem prog_starts (config : AlertConfig) (i : ℕ) (k : AlertCall) :
    clear (prog config i k) = false := by
  cases k <;> rfl

/-- The alerts of one type, in every run. -/
theorem limits_reach {config : AlertConfig} {n : ℕ} {db : AlertDb} (hlog : db.log = [])
    {cfg : AlertServer} (h : Reach (server config) (atMost n) (start db) cfg) (type : String) :
    Limits config type n cfg.state := by
  have hnone : db.admitted type = [] := by
    rw [AlertDb.admitted, hlog]
    rfl
  refine (Reach.invariant_always (I := fun cfg : AlertServer => Limits config type n cfg.state ∧
    Within (contends type) clear (used config type) n cfg) ⟨⟨?_, ?_, ?_⟩, ?_⟩ rfl
    (prog_follows config) ?_ ?_ h).1.1
  · show ∀ t ∈ db.admitted type, t ≤ db.now
    rw [hnone]
    exact fun t ht => by cases ht
  · intro t ht
    have hmem : t ∈ db.admitted type := ht
    rw [hnone] at hmem
    cases hmem
  · show Bounded n config.ttl (db.admitted type)
    rw [hnone]
    exact Bounded.nil n config.ttl
  · refine ⟨Nat.zero_le n, ?_⟩
    show (recent config.ttl db.now (db.admitted type)).length + 0 ≤ n
    rw [hnone]
    exact Nat.zero_le n
  · intro cfg i k hI hfresh hlimit
    exact ⟨hI.1, hI.2.spawn hfresh (prog_starts config i k) (hlimit type)⟩
  · intro cfg i fault th c next hI hth hproc hfollows _
    obtain ⟨hlimits, hwithin⟩ := hI
    have hroom := hwithin.room hth
    rw [hproc] at hroom
    refine ⟨?_, fun _ _ _ => trivial⟩
    cases hres : outcome fault ((server config).exec c cfg.state) with
    | error e =>
      refine ⟨hlimits, hwithin.resume running_of_clear hth hproc (Or.inl ?_)⟩
      rw [after_error, reply_error, clear_of_error hfollows, Bool.and_false,
        if_neg Bool.false_ne_true]
      exact Nat.le_add_right _ _
    | ok r =>
      obtain ⟨hlimits', hused⟩ := step_limits hfollows hlimits hroom (outcome_eq_ok hres).2
      refine ⟨hlimits', hwithin.resume running_of_clear hth hproc ?_⟩
      rw [hproc]
      exact hused

-- ---------------------------------------------------------------------------
-- One call
-- ---------------------------------------------------------------------------

/-- What a command notes of call `i`. -/
def AlertCmd.steps (i : ℕ) : (c : AlertCmd) → c.Reply → List Step
  | .set call _ _, _ => if call = i then [.admitted] else []
  | .sendAdminAlert call _ mail, _ => if call = i then [.mailed mail] else []
  | .post call _ message, _ => if call = i then [.posted message] else []
  | _, _ => []

/-- What a call may deliver once it is let through. -/
def AdminAlertPayload.deliveries (config : AlertConfig) (payload : AdminAlertPayload) : List Step :=
  [.mailed (payload.mail (config.alertEmail.getD "")),
    .posted (payload.slack (config.slackWebhookUrl.getD ""))]

/-- Nothing, or it is let through and delivers by each way at most once. -/
def AlertCall.Delivers (config : AlertConfig) : AlertCall → List Step → Prop
  | .sendAlert payload, l => l = [] ∨
      ∃ delivered, delivered.Sublist (payload.deliveries config) ∧ l = .admitted :: delivered
  | .tick _, l => l = []

section Journal

variable {config : AlertConfig} {i : ℕ} {db db' : AlertDb}

theorem stepsOf_note (call : ℕ) (type : String) (step : Step) : (db.note call type step).stepsOf i =
    db.stepsOf i ++ if call = i then [step] else [] := by
  rw [AlertDb.stepsOf, AlertDb.note, List.filter_append, List.map_append, ← AlertDb.stepsOf]
  congr 1
  by_cases h : call = i
  · rw [if_pos h, List.filter_cons_of_pos (by simpa using h)]
    rfl
  · rw [if_neg h, List.filter_cons_of_neg (by simpa using h)]
    rfl

theorem exec_stepsOf {c : AlertCmd} {a : c.Reply} (hexec : exec c db = .ok (a, db')) :
    db'.stepsOf i = db.stepsOf i ++ c.steps i a := by
  cases c with
  | get eventType =>
    cases hexec
    exact (List.append_nil _).symm
  | tick ms =>
    cases hexec
    exact (List.append_nil _).symm
  | set | sendAdminAlert | post =>
    cases hexec
    exact stepsOf_note ..

theorem prog_steps {j : ℕ} (h : i ≠ j) (k : AlertCall) :
    (prog config i k).Issues fun c => ∀ a, c.steps j a = [] := by
  cases k with
  | tick ms => exact issues_call.mpr fun _ => rfl
  | sendAlert payload =>
    refine issues_bind (issues_bind (issues_call.mpr fun _ => rfl) fun found => ?_)
      fun limited => ?_
    · split
      · exact issues_done _
      · exact issues_bind (issues_call.mpr fun _ => if_neg h) fun _ => issues_done _
    · split
      · exact issues_done _
      · refine issues_bind ?_ fun _ => ?_
        · unfold mailAlert
          split
          · exact issues_done _
          · exact issues_bind (issues_attempt (issues_call.mpr fun _ => if_neg h))
              fun _ => issues_done _
        · unfold postAlert
          split
          · exact issues_done _
          · exact issues_bind (issues_attempt (issues_call.mpr fun _ => if_neg h))
              fun _ => issues_done _

/-- A delivery in a `try`, which is made or not. -/
theorem attempt_journals {P : List Step → Prop} {l : List Step} {c : AlertCmd} {step : Step}
    (hc : ∀ a, c.steps i a = [step]) {post : Except Err Unit → List Step → Prop} (h : P l)
    (hmade : P (l ++ [step])) (hpost : post (.ok ()) l) (hpost' : post (.ok ()) (l ++ [step])) :
    ((await c).attempt.bind fun _ => Proc.done (.ok ())).Journals (fun _ _ => True)
      (AlertCmd.steps i) P post l := by
  refine journals_try_bind (journals_call h (fun a _ => ?_) fun _ => ⟨h, hpost⟩)
  rw [hc a]
  exact ⟨hmade, hmade, hpost'⟩

theorem postAlert_journals {P : List Step → Prop} {payload : AdminAlertPayload} {l : List Step}
    (h : P l) (hposted : P (l ++ [.posted (payload.slack (config.slackWebhookUrl.getD ""))])) :
    (postAlert config i payload).Journals (fun _ _ => True) (AlertCmd.steps i) P
      (fun _ _ => True) l := by
  unfold postAlert
  split
  · exact ⟨h, trivial⟩
  · refine attempt_journals (fun _ => ?_) h hposted trivial trivial
    exact if_pos rfl

theorem deliver_journals {P : List Step → Prop} {payload : AdminAlertPayload} {l : List Step}
    (hP : ∀ delivered, delivered.Sublist (payload.deliveries config) → P (l ++ delivered)) :
    (deliver config i payload).Journals (fun _ _ => True) (AlertCmd.steps i) P
      (fun _ _ => True) l := by
  have hnone : P l := by
    have hP := hP [] (List.nil_sublist _)
    rwa [List.append_nil] at hP
  have hmail : P (l ++ [.mailed (payload.mail (config.alertEmail.getD ""))]) :=
    hP _ (List.Sublist.cons_cons _ (List.nil_sublist _))
  have hpost : P (l ++ [.posted (payload.slack (config.slackWebhookUrl.getD ""))]) :=
    hP _ (List.Sublist.cons _ (List.Sublist.refl _))
  have hboth : P (l ++ [.mailed (payload.mail (config.alertEmail.getD ""))] ++
      [.posted (payload.slack (config.slackWebhookUrl.getD ""))]) := by
    rw [List.append_assoc]
    exact hP _ (List.Sublist.refl _)
  refine journals_bind ?_
  unfold mailAlert
  split
  · exact ⟨hnone, postAlert_journals hnone hpost⟩
  · refine attempt_journals (fun _ => ?_) hnone hmail (postAlert_journals hnone hpost)
      (postAlert_journals hmail hboth)
    exact if_pos rfl

theorem prog_journals (config : AlertConfig) (i : ℕ) (k : AlertCall) :
    (prog config i k).Journals (fun _ _ => True) (AlertCmd.steps i) (k.Delivers config)
      (fun _ _ => True) [] := by
  cases k with
  | tick ms => exact journals_of_issues (issues_call.mpr fun _ => rfl) rfl fun _ => trivial
  | sendAlert payload =>
    have hnil : (AlertCall.sendAlert payload).Delivers config [] := Or.inl rfl
    have hadmitted : ∀ delivered, delivered.Sublist (payload.deliveries config) →
        (AlertCall.sendAlert payload).Delivers config ([.admitted] ++ delivered) :=
      fun delivered h => Or.inr ⟨delivered, h, rfl⟩
    refine journals_bind (journals_bind (journals_call hnil (fun found _ => ⟨hnil, ?_⟩)
      fun _ => trivial))
    cases found with
    | true => exact ⟨hnil, hnil, trivial⟩
    | false =>
      have hset : (AlertCmd.set i payload.type config.ttl).steps i () = [.admitted] := if_pos rfl
      have hstart : (AlertCall.sendAlert payload).Delivers config [.admitted] :=
        hadmitted [] (List.nil_sublist _)
      refine journals_bind (l := []) (journals_call (c := AlertCmd.set i payload.type config.ttl)
        hnil (fun _ _ => ?_) fun _ => trivial)
      rw [hset]
      exact ⟨hstart, hstart, deliver_journals hadmitted⟩

end Journal

/-- **Alerts are throttled.** -/
theorem alerts_throttled {config : AlertConfig} {n : ℕ} {db : AlertDb} (hlog : db.log = [])
    {cfg : AlertServer} (h : Reach (server config) (atMost n) (start db) cfg) :
    (∀ type, Bounded n config.ttl (cfg.state.admitted type)) ∧
    ∀ i th, cfg.thread i = some th → th.call.Delivers config (cfg.state.stepsOf i) := by
  refine ⟨fun type => (limits_reach hlog h type).bounded, ?_⟩
  have hempty : ∀ i, db.stepsOf i = [] := by
    intro i
    rw [AlertDb.stepsOf, hlog]
    rfl
  obtain ⟨-, hjournals⟩ := h.journals (fun i db => db.stepsOf i) (O := AlertCmd.steps)
    (P := fun _ k => k.Delivers config) (Q := fun _ _ _ _ => True) (G := fun _ _ => True) rfl
    hempty (fun i c s a s' hexec => exec_stepsOf hexec) (fun _ _ _ _ _ => trivial)
    (fun i j k hij => prog_steps hij k) (prog_journals config)
  exact fun i th hth => (hjournals i th hth).here

def mailedOnly : AlertConfig := ⟨some "ops@example.com", none, 15⟩

/-- An alert for a locked account. -/
def lockedOut : AdminAlertPayload := ⟨"account-lockout", .high, "Account locked", "user 7", none⟩

/-- Two alerts of a type at once: both are let through. -/
theorem alerts_throttled_two : ∃ cfg : AlertServer,
    Reach (server mailedOnly) (atMost 2) (start ⟨[], 0, []⟩) cfg ∧
    (∀ type, Bounded 2 900000 (cfg.state.admitted type)) ∧
    cfg.state.admitted "account-lockout" = [0, 0] := by
  have hfirst : Reach (server mailedOnly) (atMost 2) (start ⟨[], 0, []⟩)
      ((start ⟨[], 0, []⟩).spawn 0 (.sendAlert lockedOut)
        (prog mailedOnly 0 (.sendAlert lockedOut))) :=
    .call 0 (AlertCall.sendAlert lockedOut) .refl rfl fun type _ => Nat.zero_lt_two
  have hsecond : Reach (server mailedOnly) (atMost 2) (start ⟨[], 0, []⟩)
      (((start ⟨[], 0, []⟩).spawn 0 (.sendAlert lockedOut)
        (prog mailedOnly 0 (.sendAlert lockedOut))).spawn 1 (.sendAlert lockedOut)
        (prog mailedOnly 1 (.sendAlert lockedOut))) := by
    refine .call 1 (AlertCall.sendAlert lockedOut) hfirst rfl fun type htype => ?_
    obtain rfl : "account-lockout" = type := Option.some.inj (of_decide_eq_true htype)
    decide
  have hrun : (server mailedOnly).run
      (((start ⟨[], 0, []⟩).spawn 0 (.sendAlert lockedOut)
        (prog mailedOnly 0 (.sendAlert lockedOut))).spawn 1 (.sendAlert lockedOut)
        (prog mailedOnly 1 (.sendAlert lockedOut)))
      [.step 0 none, .step 1 none, .step 0 none, .step 1 none, .step 0 none] = some _ := rfl
  have hreach := hsecond.of_run (fun i k hmem => by simp at hmem) (fun _ _ _ _ => trivial) hrun
  exact ⟨_, hreach, (alerts_throttled rfl hreach).1, rfl⟩

end Alerts

end NexaFx
