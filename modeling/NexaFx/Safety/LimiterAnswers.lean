import NexaFx.Safety.PerUserLimits

/-!
# NexaFx — what the checks of a user are told

`check` calls of one user on one endpoint, one after the other (`calls`). One
record serves two categories with different limits, and it is compared with `<`
where the answer announces the equal instant.

`remaining` is always what it says. The rest of what the answers promise is kept
exactly when no call finds a full window that others than its own category have
filled, and none comes back to a full window at the very instant that was
announced (`promises_kept_iff`).
-/

namespace NexaFx

open Async

namespace PerUserLimits

-- ---------------------------------------------------------------------------
-- One call after the other
-- ---------------------------------------------------------------------------

/-- When a call is made, and how. -/
structure Visit where
  method : String
  time : ℕ
  deriving DecidableEq

def Visit.category (v : Visit) : Category := categorizeMethod v.method

def Visit.limit (v : Visit) : ℕ := v.category.limit

/-- A call, from its start to its end. -/
structure Call where
  visit : Visit
  before : LimiterDb
  result : Except Err PerUserRateLimitResult
  after : LimiterDb

def call (key : RecordKey) (db : LimiterDb) (v : Visit) : Call :=
  let out := (check key.1 key.2 v.method).run exec Proc.noFault { db with now := v.time }
  ⟨v, db, out.1, out.2⟩

/-- The calls of a user on an endpoint. -/
def calls (key : RecordKey) : LimiterDb → List Visit → List Call
  | _, [] => []
  | db, v :: vs => call key db v :: calls key (call key db v).after vs

def leaves (key : RecordKey) (db : LimiterDb) (vs : List Visit) : LimiterDb :=
  vs.foldl (fun db v => (call key db v).after) db

def Call.allowed (c : Call) : Bool :=
  match c.result with
  | .ok result => result.allowed
  | .error _ => false

/-- The answer announces this instant. -/
def Call.resetsAt (c : Call) (t : ℕ) : Prop := ∃ result, c.result = .ok result ∧ result.resetAt = t

instance (c : Call) (t : ℕ) : Decidable (c.resetsAt t) :=
  match h : c.result with
  | .ok result => decidable_of_iff (result.resetAt = t) (by simp [Call.resetsAt, h])
  | .error _ => isFalse (by simp [Call.resetsAt, h])

-- ---------------------------------------------------------------------------
-- The property
-- ---------------------------------------------------------------------------

/-- What the answers promise. Windows are told apart by the instant at which
they are announced to end. -/
structure Promises (key : RecordKey) (cs : List Call) : Prop where
  answered : ∀ c ∈ cs, ∃ result, c.result = .ok result
  reset : ∀ pre d mid c post t, cs = pre ++ d :: mid ++ c :: post →
    d.allowed = false → d.resetsAt t → (∀ e ∈ mid, e.visit.time < t) → t ≤ c.visit.time →
    c.allowed = true
  separate : ∀ pre c post t, cs = pre ++ c :: post → c.resetsAt t →
    (pre.countP fun e => e.visit.category = c.visit.category ∧ e.resetsAt t) < c.visit.limit →
    c.allowed = true
  remaining : ∀ c ∈ cs, ∀ result, c.result = .ok result → ∀ n,
    (calls key c.after (List.replicate n c.visit)).countP Call.allowed = min n result.remaining

/-- The call finds the window that was opened at `w` with no place left for its
category. -/
def Call.FindsFull (key : RecordKey) (c : Call) (w : ℕ) : Prop :=
  ∃ r, c.before.record key = some r ∧ r.windowStart = w ∧ c.visit.time ≤ w + windowMs ∧
    c.visit.limit ≤ r.requestCount

/-- Full windows are full of calls of the category, and none is found full a
second time at its end. -/
structure Spared (key : RecordKey) (cs : List Call) : Prop where
  own : ∀ pre c post w, cs = pre ++ c :: post → c.FindsFull key w →
    c.visit.limit ≤
      pre.countP fun e => e.visit.category = c.visit.category ∧ w ≤ e.visit.time
  early : ∀ pre d mid c post w, cs = pre ++ d :: mid ++ c :: post → d.FindsFull key w →
    (∀ e ∈ mid, e.visit.time < w + windowMs) → c.FindsFull key w →
    c.visit.time < w + windowMs

-- ---------------------------------------------------------------------------
-- One call
-- ---------------------------------------------------------------------------

section Call

variable {key : RecordKey} {db : LimiterDb} {v : Visit} {r : RateLimitRecordEntity}

/-- No window, or one that is over. -/
def Opens (key : RecordKey) (db : LimiterDb) (v : Visit) : Prop :=
  ∀ r, db.record key = some r → r.windowStart + windowMs < v.time

theorem key_of_record (h : db.record key = some r) : r.key = key :=
  Table.key_of_get RateLimitRecordEntity.key h

/-- A check that knows its record. -/
def answer (key : RecordKey) (v : Visit) :
    Option RateLimitRecordEntity → LimiterProc PerUserRateLimitResult
  | none => do
    await (.insert ⟨key.1, key.2, 1, v.time⟩ (v.category, v.time))
    return ⟨true, v.limit - 1, v.time + windowMs, v.limit⟩
  | some record =>
    if (record.windowStart : ℤ) < (v.time : ℤ) - windowMs then do
      await (.save { record with requestCount := 1, windowStart := v.time } (v.category, v.time))
      return ⟨true, v.limit - 1, v.time + windowMs, v.limit⟩
    else if record.requestCount < v.limit then do
      await (.update record (record.requestCount + 1) (v.category, v.time))
      return ⟨true, v.limit - record.requestCount - 1, record.windowStart + windowMs, v.limit⟩
    else
      return ⟨false, v.limit - record.requestCount, record.windowStart + windowMs, v.limit⟩

theorem check_run {found : Option RateLimitRecordEntity} (hfound : db.record key = found) :
    (check key.1 key.2 v.method).run exec Proc.noFault { db with now := v.time } =
      (answer key v found).run exec Proc.noFault { db with now := v.time } := by
  have hlookup : exec (.findOne key.1 key.2) { db with now := v.time } =
      .ok (found, { db with now := v.time }) := by
    rw [exec, ← hfound]
    rfl
  unfold check
  simp only [Proc.bind_eq]
  rw [Proc.run_call_bind_ok rfl rfl, Proc.run_call_bind_ok rfl hlookup]
  cases found <;> rfl

theorem call_opens (h : Opens key db v) :
    (call key db v).result = .ok ⟨true, v.limit - 1, v.time + windowMs, v.limit⟩ ∧
      ∃ r, (call key db v).after.record key = some r ∧ r.windowStart = v.time ∧
        r.requestCount = 1 := by
  unfold call
  cases hfound : db.record key with
  | none =>
    have hinsert : exec (.insert ⟨key.1, key.2, 1, v.time⟩ (v.category, v.time))
        { db with now := v.time } = .ok ((), ({ db with now := v.time } : LimiterDb).storeWindow
          ⟨key.1, key.2, 1, v.time⟩ (v.category, v.time)) := by
      rw [exec]
      split
      · rename_i hsome
        exact absurd (hfound.symm.trans hsome) (by simp)
      · rfl
    rw [check_run hfound, answer, Proc.bind_eq, Proc.run_call_bind_ok rfl hinsert]
    exact ⟨rfl, _, (record_store _ _ (v.category, v.time) key).trans (if_pos rfl), rfl, rfl⟩
  | some r =>
    have hover : (r.windowStart : ℤ) < (v.time : ℤ) - windowMs := by
      have hlt := h r hfound
      omega
    have hkey := key_of_record hfound
    rw [check_run hfound, answer, if_pos hover, Proc.bind_eq, Proc.run_call_bind_ok rfl rfl]
    exact ⟨rfl, _, (record_store _ _ (v.category, v.time) key).trans (if_pos hkey), rfl, rfl⟩

theorem call_counts (hfound : db.record key = some r) (htime : v.time ≤ r.windowStart + windowMs)
    (hcount : r.requestCount < v.limit) :
    (call key db v).result =
        .ok ⟨true, v.limit - r.requestCount - 1, r.windowStart + windowMs, v.limit⟩ ∧
      (call key db v).after.record key = some { r with requestCount := r.requestCount + 1 } := by
  have hover : ¬ (r.windowStart : ℤ) < (v.time : ℤ) - windowMs := by omega
  have hkey := key_of_record hfound
  have hupdate : exec (.update r (r.requestCount + 1) (v.category, v.time))
      { db with now := v.time } = .ok ((), ({ db with now := v.time } : LimiterDb).store
        { r with requestCount := r.requestCount + 1 } (v.category, v.time)) := by
    have hrow : ({ db with now := v.time } : LimiterDb).record r.key = some r := by
      rw [hkey]
      exact hfound
    rw [exec, hrow]
  unfold call
  rw [check_run hfound, answer, if_neg hover, if_pos hcount, Proc.bind_eq,
    Proc.run_call_bind_ok rfl hupdate]
  exact ⟨rfl, (record_store _ _ (v.category, v.time) key).trans (if_pos hkey)⟩

theorem call_full (hfound : db.record key = some r) (htime : v.time ≤ r.windowStart + windowMs)
    (hcount : v.limit ≤ r.requestCount) :
    (call key db v).result =
        .ok ⟨false, v.limit - r.requestCount, r.windowStart + windowMs, v.limit⟩ ∧
      (call key db v).after.record key = some r := by
  have hover : ¬ (r.windowStart : ℤ) < (v.time : ℤ) - windowMs := by omega
  unfold call
  rw [check_run hfound, answer, if_neg hover, if_neg (Nat.not_lt.mpr hcount)]
  exact ⟨rfl, hfound⟩

/-- What a call comes to. -/
theorem call_cases (key : RecordKey) (db : LimiterDb) (v : Visit) :
    Opens key db v ∨ ∃ r, db.record key = some r ∧ v.time ≤ r.windowStart + windowMs := by
  cases hfound : db.record key with
  | none =>
    left
    intro r hr
    rw [hfound] at hr
    cases hr
  | some r =>
    rcases Nat.lt_or_ge (r.windowStart + windowMs) v.time with hlt | hge
    · left
      intro r' hr'
      rw [hfound] at hr'
      cases hr'
      exact hlt
    · exact Or.inr ⟨r, rfl, hge⟩

theorem allowed_of_result {c : Call} {result : PerUserRateLimitResult}
    (h : c.result = .ok result) : c.allowed = result.allowed := by
  rw [Call.allowed, h]

/-- A call within the window of its record. -/
theorem call_within (hfound : db.record key = some r)
    (htime : v.time ≤ r.windowStart + windowMs) :
    (call key db v).resetsAt (r.windowStart + windowMs) ∧
      ∃ r', (call key db v).after.record key = some r' ∧ r'.windowStart = r.windowStart := by
  rcases Nat.lt_or_ge r.requestCount v.limit with hlt | hge
  · obtain ⟨hresult, hafter⟩ := call_counts hfound htime hlt
    exact ⟨⟨_, hresult, rfl⟩, _, hafter, rfl⟩
  · obtain ⟨hresult, hafter⟩ := call_full hfound htime hge
    exact ⟨⟨_, hresult, rfl⟩, _, hafter, rfl⟩

theorem resetsAt_inj {c : Call} {t t' : ℕ} (h : c.resetsAt t) (h' : c.resetsAt t') : t = t' := by
  obtain ⟨result, hresult, rfl⟩ := h
  obtain ⟨result', hresult', rfl⟩ := h'
  rw [hresult] at hresult'
  cases hresult'
  rfl

theorem call_answered (key : RecordKey) (db : LimiterDb) (v : Visit) :
    ∃ result, (call key db v).result = .ok result := by
  rcases call_cases key db v with hopens | ⟨r, hfound, htime⟩
  · exact ⟨_, (call_opens hopens).1⟩
  · obtain ⟨⟨result, hresult, -⟩, -⟩ := call_within hfound htime
    exact ⟨result, hresult⟩

/-- Full windows are what a call is denied for. -/
theorem denied_iff : (call key db v).allowed = false ↔ ∃ w, (call key db v).FindsFull key w := by
  constructor
  · intro hdenied
    rcases call_cases key db v with hopens | ⟨r, hfound, htime⟩
    · rw [allowed_of_result (call_opens hopens).1] at hdenied
      cases hdenied
    · rcases Nat.lt_or_ge r.requestCount v.limit with hlt | hge
      · rw [allowed_of_result (call_counts hfound htime hlt).1] at hdenied
        cases hdenied
      · exact ⟨r.windowStart, r, hfound, rfl, htime, hge⟩
  · rintro ⟨w, r, hfound, rfl, htime, hfull⟩
    exact allowed_of_result (call_full hfound htime hfull).1

theorem FindsFull.resetsAt {w : ℕ} (h : (call key db v).FindsFull key w) :
    (call key db v).resetsAt (w + windowMs) := by
  obtain ⟨r, hfound, rfl, htime, -⟩ := h
  exact (call_within hfound htime).1

end Call

-- ---------------------------------------------------------------------------
-- Many calls
-- ---------------------------------------------------------------------------

section Calls

variable {key : RecordKey} {db : LimiterDb}

theorem calls_append (vs ws : List Visit) :
    calls key db (vs ++ ws) = calls key db vs ++ calls key (leaves key db vs) ws := by
  induction vs generalizing db with
  | nil => rfl
  | cons v vs ih =>
    rw [List.cons_append, calls, ih]
    rfl

theorem leaves_append (vs ws : List Visit) :
    leaves key db (vs ++ ws) = leaves key (leaves key db vs) ws :=
  List.foldl_append

theorem calls_split {vs : List Visit} {pre post : List Call}
    (h : calls key db vs = pre ++ post) :
    ∃ vs₁ vs₂, vs = vs₁ ++ vs₂ ∧ calls key db vs₁ = pre ∧
      calls key (leaves key db vs₁) vs₂ = post := by
  induction pre generalizing db vs with
  | nil => exact ⟨[], vs, rfl, rfl, h⟩
  | cons c pre ih =>
    cases vs with
    | nil => cases h
    | cons v vs =>
      obtain ⟨rfl, hrest⟩ := List.cons.inj h
      obtain ⟨vs₁, vs₂, rfl, rfl, hpost⟩ := ih hrest
      exact ⟨v :: vs₁, vs₂, rfl, rfl, hpost⟩

/-- A call among the others. -/
theorem calls_at {vs : List Visit} {pre post : List Call} {c : Call}
    (h : calls key db vs = pre ++ c :: post) :
    ∃ vs₁ v vs₂, vs = vs₁ ++ v :: vs₂ ∧ calls key db vs₁ = pre ∧
      call key (leaves key db vs₁) v = c ∧ calls key c.after vs₂ = post := by
  obtain ⟨vs₁, vs₂, rfl, hpre, hpost⟩ := calls_split h
  cases vs₂ with
  | nil => cases hpost
  | cons v vs₂ =>
    obtain ⟨rfl, hrest⟩ := List.cons.inj hpost
    exact ⟨vs₁, v, vs₂, rfl, hpre, rfl, hrest⟩

theorem visit_mem {vs : List Visit} {e : Call} (h : e ∈ calls key db vs) : e.visit ∈ vs := by
  induction vs generalizing db with
  | nil => cases h
  | cons v vs ih =>
    rcases List.mem_cons.mp h with rfl | hrest
    · exact List.mem_cons_self
    · exact List.mem_cons_of_mem v (ih hrest)

/-- A window stays while nobody comes after its end. -/
theorem leaves_within {vs : List Visit} {r : RateLimitRecordEntity}
    (hfound : db.record key = some r) (htime : ∀ e ∈ calls key db vs,
      e.visit.time ≤ r.windowStart + windowMs) :
    ∃ r', (leaves key db vs).record key = some r' ∧ r'.windowStart = r.windowStart := by
  induction vs generalizing db r with
  | nil => exact ⟨r, hfound, rfl⟩
  | cons v vs ih =>
    obtain ⟨-, r', hafter, hstart⟩ := call_within hfound (htime _ List.mem_cons_self)
    rw [← hstart] at htime ⊢
    exact ih hafter fun e he => htime e (List.mem_cons_of_mem _ he)

/-- What the answers so far have to do with the stored window. -/
structure Filed (key : RecordKey) (pre : List Call) (db : LimiterDb) : Prop where
  unused : db.record key = none → pre = []
  opened : ∀ r, db.record key = some r → ∃ e ∈ pre, e.visit.time = r.windowStart
  told : ∀ r, db.record key = some r → ∀ e ∈ pre, ∃ t, e.resetsAt t ∧
    t ≤ r.windowStart + windowMs ∧ e.visit.time ≤ r.windowStart + windowMs ∧
    (t = r.windowStart + windowMs ↔ r.windowStart ≤ e.visit.time)

theorem Filed.call {pre : List Call} {v : Visit} (h : Filed key pre db)
    (hlast : ∀ e ∈ pre, e.visit.time ≤ v.time) :
    Filed key (pre ++ [call key db v]) (PerUserLimits.call key db v).after := by
  rcases call_cases key db v with hopens | ⟨r, hfound, htime⟩
  · obtain ⟨hresult, r, hafter, hstart, -⟩ := call_opens hopens
    have hsame : ∀ r', (PerUserLimits.call key db v).after.record key = some r' →
        r'.windowStart = v.time := by
      intro r' hr'
      rw [hafter] at hr'
      cases hr'
      exact hstart
    refine ⟨fun hnone => ?_, fun r' hr' => ?_, fun r' hr' e he => ?_⟩
    · rw [hafter] at hnone
      cases hnone
    · exact ⟨_, List.mem_append_right _ List.mem_cons_self, (hsame r' hr').symm⟩
    · rw [hsame r' hr']
      rcases List.mem_append.mp he with hold | hnew
      · cases hbefore : db.record key with
        | none =>
          rw [h.unused hbefore] at hold
          cases hold
        | some r₀ =>
          -- The last window was over, and all that was announced with it.
          have hover := hopens r₀ hbefore
          obtain ⟨t, ht, hle, hearlier, -⟩ := h.told r₀ hbefore e hold
          exact ⟨t, ht, by omega, by omega, by omega⟩
      · cases List.mem_singleton.mp hnew
        exact ⟨v.time + windowMs, ⟨_, hresult, rfl⟩, le_rfl, Nat.le_add_right _ _,
          iff_of_true rfl le_rfl⟩
  · obtain ⟨hreset, r', hafter, hstart⟩ := call_within hfound htime
    obtain ⟨e₀, he₀, hopened⟩ := h.opened r hfound
    have hsame : ∀ r'', (PerUserLimits.call key db v).after.record key = some r'' →
        r''.windowStart = r.windowStart := by
      intro r'' hr''
      rw [hafter] at hr''
      cases hr''
      exact hstart
    refine ⟨fun hnone => ?_, fun r'' hr'' => ?_, fun r'' hr'' e he => ?_⟩
    · rw [hafter] at hnone
      cases hnone
    · exact ⟨e₀, List.mem_append_left _ he₀, hopened.trans (hsame r'' hr'').symm⟩
    · rw [hsame r'' hr'']
      rcases List.mem_append.mp he with hold | hnew
      · exact h.told r hfound e hold
      · cases List.mem_singleton.mp hnew
        have hstarted := hlast e₀ he₀
        rw [hopened] at hstarted
        exact ⟨_, hreset, le_rfl, htime, iff_of_true rfl hstarted⟩

/-- Calls in the order of their times. -/
def InOrder (vs : List Visit) : Prop := vs.Pairwise fun v v' => v.time ≤ v'.time

theorem filed_calls {vs : List Visit} (hunused : db.record key = none) (horder : InOrder vs) :
    Filed key (calls key db vs) (leaves key db vs) := by
  induction vs using List.reverseRecOn with
  | nil =>
    refine ⟨fun _ => rfl, fun r hr => ?_, fun r hr => ?_⟩ <;>
    · rw [show leaves key db [] = db from rfl, hunused] at hr
      cases hr
  | append_singleton vs v ih =>
    unfold InOrder at horder
    rw [List.pairwise_append] at horder
    rw [calls_append, leaves_append]
    exact (ih horder.1).call fun e he => horder.2.2 _ (visit_mem he) v List.mem_cons_self

-- ---------------------------------------------------------------------------
-- Remaining
-- ---------------------------------------------------------------------------

/-- The same call again and again at one instant. -/
theorem countP_allowed {v : Visit} {r : RateLimitRecordEntity} (hfound : db.record key = some r)
    (htime : v.time ≤ r.windowStart + windowMs) (n : ℕ) :
    (calls key db (List.replicate n v)).countP Call.allowed = min n (v.limit - r.requestCount) := by
  induction n generalizing db r with
  | zero => simp [calls]
  | succ n ih =>
    rw [List.replicate_succ, calls, List.countP_cons]
    rcases Nat.lt_or_ge r.requestCount v.limit with hlt | hge
    · obtain ⟨hresult, hafter⟩ := call_counts hfound htime hlt
      rw [ih hafter htime, allowed_of_result hresult, if_pos rfl]
      change min n (v.limit - (r.requestCount + 1)) + 1 = min (n + 1) (v.limit - r.requestCount)
      omega
    · obtain ⟨hresult, hafter⟩ := call_full hfound htime hge
      rw [ih hafter htime, allowed_of_result hresult, if_neg Bool.false_ne_true]
      omega

/-- What is left after a call, in its record and in its answer. -/
theorem call_remaining (key : RecordKey) (db : LimiterDb) (v : Visit) :
    ∃ result r, (call key db v).result = .ok result ∧ (call key db v).after.record key = some r ∧
      v.time ≤ r.windowStart + windowMs ∧ result.remaining = v.limit - r.requestCount := by
  rcases call_cases key db v with hopens | ⟨r, hfound, htime⟩
  · obtain ⟨hresult, r, hafter, hstart, hcount⟩ := call_opens hopens
    refine ⟨_, r, hresult, hafter, ?_, ?_⟩
    · rw [hstart]
      exact Nat.le_add_right _ _
    · rw [hcount]
  · rcases Nat.lt_or_ge r.requestCount v.limit with hlt | hge
    · obtain ⟨hresult, hafter⟩ := call_counts hfound htime hlt
      exact ⟨_, _, hresult, hafter, htime, Nat.sub_sub _ _ _⟩
    · obtain ⟨hresult, hafter⟩ := call_full hfound htime hge
      exact ⟨_, _, hresult, hafter, htime, rfl⟩

theorem remaining_exact (key : RecordKey) (db : LimiterDb) (v : Visit)
    {result : PerUserRateLimitResult} (h : (call key db v).result = .ok result) (n : ℕ) :
    (calls key (call key db v).after (List.replicate n v)).countP Call.allowed =
      min n result.remaining := by
  obtain ⟨result', r, hresult, hafter, htime, hremaining⟩ := call_remaining key db v
  rw [h] at hresult
  cases hresult
  rw [countP_allowed hafter htime, hremaining]

-- ---------------------------------------------------------------------------
-- The promises
-- ---------------------------------------------------------------------------

/-- A window that was found full, and is the stored one until the next call. -/
theorem same_window {vs : List Visit} {pre mid post : List Call} {d c : Call} {w w' : ℕ}
    (h : calls key db vs = pre ++ d :: mid ++ c :: post) (hd : d.FindsFull key w)
    (hmid : ∀ e ∈ mid, e.visit.time < w + windowMs) (hc : c.FindsFull key w') : w' = w := by
  rw [List.append_assoc, List.cons_append] at h
  obtain ⟨vs₁, v, vs₂, -, -, rfl, hrest⟩ := calls_at h
  obtain ⟨vm, v', vs₃, -, rfl, rfl, -⟩ := calls_at hrest
  obtain ⟨r, hfound, rfl, htime, hfull⟩ := hd
  have hafter := (call_full hfound htime hfull).2
  obtain ⟨r', hafter', hstart⟩ := leaves_within hafter fun e he => (hmid e he).le
  obtain ⟨r'', hfound', rfl, -⟩ := hc
  have hsame : r'' = r' := Option.some.inj (hfound'.symm.trans hafter')
  rw [hsame, hstart]

/-- Those who were told the end of a full window are those who came after its
start. -/
theorem countP_window {vs : List Visit} (hunused : db.record key = none) (horder : InOrder vs)
    {pre post : List Call} {c : Call} (h : calls key db vs = pre ++ c :: post) {w : ℕ}
    (hc : c.FindsFull key w) :
    (pre.countP fun e => e.visit.category = c.visit.category ∧ e.resetsAt (w + windowMs)) =
      pre.countP fun e => e.visit.category = c.visit.category ∧ w ≤ e.visit.time := by
  obtain ⟨vs₁, v, vs₂, rfl, rfl, rfl, -⟩ := calls_at h
  have hfiled := filed_calls hunused (List.pairwise_append.mp horder).1
  obtain ⟨r, hfound, rfl, -, -⟩ := hc
  refine List.countP_congr fun e he => ?_
  obtain ⟨t, ht, -, -, hiff⟩ := hfiled.told r hfound e he
  have hreset : e.resetsAt (r.windowStart + windowMs) ↔ t = r.windowStart + windowMs :=
    ⟨resetsAt_inj ht, fun heq => heq ▸ ht⟩
  simp only [decide_eq_true_eq, hreset, hiff]

/-- **The promises of the answers.** For calls in the order of their times, from
a record that does not exist yet. -/
theorem promises_kept_iff {vs : List Visit} (hunused : db.record key = none)
    (horder : InOrder vs) :
    Promises key (calls key db vs) ↔ Spared key (calls key db vs) := by
  have hdenied : ∀ {pre c post}, calls key db vs = pre ++ c :: post →
      (c.allowed = false ↔ ∃ w, c.FindsFull key w) := by
    intro pre c post h
    obtain ⟨vs₁, v, vs₂, -, -, rfl, -⟩ := calls_at h
    exact denied_iff
  have hresets : ∀ {pre c post}, calls key db vs = pre ++ c :: post → ∀ {w},
      c.FindsFull key w → c.resetsAt (w + windowMs) := by
    intro pre c post h w hfull
    obtain ⟨vs₁, v, vs₂, -, -, rfl, -⟩ := calls_at h
    exact FindsFull.resetsAt hfull
  constructor
  · intro h
    refine ⟨fun pre c post w hc hfull => ?_, fun pre d mid c post w hc hd hmid hfull => ?_⟩
    · by_contra hless
      rw [Nat.not_le, ← countP_window hunused horder hc hfull] at hless
      have hallowed := h.separate pre c post _ hc (hresets hc hfull) hless
      rw [(hdenied hc).mpr ⟨w, hfull⟩] at hallowed
      cases hallowed
    · by_contra hlate
      have hsplit := hc
      rw [List.append_assoc, List.cons_append] at hsplit
      have hallowed := h.reset pre d mid c post _ hc ((hdenied hsplit).mpr ⟨w, hd⟩)
        (hresets hsplit hd) hmid (Nat.not_lt.mp hlate)
      rw [(hdenied hc).mpr ⟨w, hfull⟩] at hallowed
      cases hallowed
  · intro h
    refine ⟨fun c hc => ?_, fun pre d mid c post t hc hd ht hmid hlate => ?_,
      fun pre c post t hc ht hless => ?_, fun c hc result hresult n => ?_⟩
    · obtain ⟨pre, post, hsplit⟩ := List.append_of_mem hc
      obtain ⟨vs₁, v, vs₂, -, -, rfl, -⟩ := calls_at hsplit
      exact call_answered key _ v
    · have hsplit := hc
      rw [List.append_assoc, List.cons_append] at hsplit
      obtain ⟨w, hfull⟩ := (hdenied hsplit).mp hd
      obtain rfl := resetsAt_inj ht (hresets hsplit hfull)
      by_contra hdenied'
      obtain ⟨w', hfull'⟩ := (hdenied hc).mp (Bool.eq_false_iff.mpr hdenied')
      obtain rfl := same_window hc hfull hmid hfull'
      exact absurd (h.early pre d mid c post w' hc hfull hmid hfull') (Nat.not_lt.mpr hlate)
    · by_contra hdenied'
      obtain ⟨w, hfull⟩ := (hdenied hc).mp (Bool.eq_false_iff.mpr hdenied')
      obtain rfl := resetsAt_inj ht (hresets hc hfull)
      rw [countP_window hunused horder hc hfull] at hless
      exact absurd (h.own pre c post w hc hfull) (Nat.not_le.mpr hless)
    · obtain ⟨pre, post, hsplit⟩ := List.append_of_mem hc
      obtain ⟨vs₁, v, vs₂, -, -, rfl, -⟩ := calls_at hsplit
      exact remaining_exact key _ v hresult n

end Calls

/-- Twenty-one withdrawals at once, and one that waits for longer than a minute. -/
def patient : List Visit := List.replicate 21 ⟨"POST", 0⟩ ++ [⟨"POST", 60001⟩]

theorem promises_kept_patient :
    Promises user7 (calls user7 noRecords patient) ↔ Spared user7 (calls user7 noRecords patient) :=
  promises_kept_iff rfl (by unfold InOrder; decide)

/-- Twenty lookups, and then a withdrawal. -/
theorem reads_deny_write :
    ¬ Promises user7 (calls user7 noRecords (List.replicate 20 ⟨"GET", 0⟩ ++ [⟨"POST", 0⟩])) := by
  intro h
  have hallowed := h.separate _ _ [] 60000 (calls_append (List.replicate 20 ⟨"GET", 0⟩) [_])
    (by decide +kernel) (by decide +kernel)
  revert hallowed
  decide +kernel

/-- Twenty-one withdrawals at once, and the last of them again at the announced
instant. -/
theorem denied_at_reset :
    ¬ Promises user7 (calls user7 noRecords
      (List.replicate 20 ⟨"POST", 0⟩ ++ [⟨"POST", 0⟩, ⟨"POST", 60000⟩])) := by
  intro h
  let full := leaves user7 noRecords (List.replicate 20 ⟨"POST", 0⟩)
  let denied := call user7 full ⟨"POST", 0⟩
  let again := call user7 denied.after ⟨"POST", 60000⟩
  have hsplit : calls user7 noRecords
      (List.replicate 20 ⟨"POST", 0⟩ ++ [⟨"POST", 0⟩, ⟨"POST", 60000⟩]) =
      calls user7 noRecords (List.replicate 20 ⟨"POST", 0⟩) ++ denied :: [] ++ again :: [] := by
    rw [calls_append, List.append_assoc]
    rfl
  have hallowed := h.reset _ denied [] again [] 60000 hsplit (by decide +kernel)
    (by decide +kernel) (by simp) (by decide +kernel)
  revert hallowed
  decide +kernel

end PerUserLimits

end NexaFx
