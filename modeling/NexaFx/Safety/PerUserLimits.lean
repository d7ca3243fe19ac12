import NexaFx.Lib.Exclusive
import NexaFx.Lib.FixedWindow
import NexaFx.Model.PerUserLimits

/-!
# NexaFx — how many checks of a user are allowed

`check` calls, interleaved at every await. A check reads the clock, looks its
record up, and writes what it read plus one, or a new window; nothing ties the
lookup to the write.

When no check looks a record up while another one on it has its write in front
of it, and none is counted in a window that a later check opened, the record is
a fixed window counter (`Counted`), and no stored window has more allowed checks
than its limit (`checks_limited`). Without the first, twenty checks that read
the same count are all allowed; without the second, a check that started in a
full window is allowed in the next one (`limit_exceeded`).
-/

namespace NexaFx

open Async

namespace PerUserLimits

-- ---------------------------------------------------------------------------
-- The property
-- ---------------------------------------------------------------------------

/-- The windows of a record that were stored. -/
def LimiterDb.windowsOf (db : LimiterDb) (key : RecordKey) : List ℕ :=
  (db.windows.filter fun w => decide (w.1 = key)).map Prod.snd

/-- The allowed checks of a user on an endpoint. -/
def LimiterDb.passedBy (db : LimiterDb) (key : RecordKey) : List Started :=
  (db.passed.filter fun p => decide (p.1 = key)).map Prod.snd

/-- Of each category, no more checks than its limit started within a stored
window and were allowed; and there is at most one record. -/
structure Limited (key : RecordKey) (db : LimiterDb) : Prop where
  bounded : ∀ w ∈ db.windowsOf key, ∀ category : Category,
    FixedWindow.within windowMs w category (db.passedBy key) ≤ category.limit
  single : (db.records.countP fun r => decide (r.key = key)) ≤ 1

def LimiterCmd.isWrite : LimiterCmd → Bool
  | .insert _ _ | .save _ _ | .update _ _ _ => true
  | _ => false

/-- The call checks the user on the endpoint. -/
def LimiterCall.checks (key : RecordKey) : LimiterCall → Bool
  | .check userId endpoint _ => decide ((userId, endpoint) = key)
  | .tick _ => false

/-- No check of the record has its write in front of it. -/
def NoneWriting (key : RecordKey) (cfg : LimiterConfig) : Prop :=
  ∀ i th, cfg.thread i = some th → th.call.checks key = true →
    ∀ c, th.proc.waitsOn = some c → c.isWrite = false

/-- A check is counted in a window that was not opened after it started. -/
def LimiterCmd.Timely : LimiterCmd → Prop
  | .update record _ check => record.windowStart ≤ check.2
  | _ => True

instance : DecidablePred LimiterCmd.Timely
  | .update record _ check => inferInstanceAs (Decidable (record.windowStart ≤ check.2))
  | .now | .findOne _ _ | .insert _ _ | .save _ _ | .tick _ => isTrue trivial

/-- No check looks the record up while another one has its write in front of
it, and none is counted in a window that was opened after it started. -/
def oneByOne (key : RecordKey) : Discipline LimiterCall LimiterCmd LimiterCmd.Reply Err LimiterDb
    (Option PerUserRateLimitResult) where
  onCall _ _ _ := True
  onStep cfg th c _ := th.call.checks key = true →
    (c = .findOne key.1 key.2 → NoneWriting key cfg) ∧ c.Timely

-- ---------------------------------------------------------------------------
-- One record among the others
-- ---------------------------------------------------------------------------

/-- What the rest of the server leaves. -/
structure Apart (key : RecordKey) (db db' : LimiterDb) : Prop where
  record : db'.record key = db.record key
  windows : db'.windowsOf key = db.windowsOf key
  passed : db'.passedBy key = db.passedBy key

/-- The record counts as a fixed window does. -/
inductive Counted (key : RecordKey) (db : LimiterDb) : Prop
  | unused (none : db.record key = none) (windows : db.windowsOf key = [])
      (passed : db.passedBy key = [])
  | counting (r : RateLimitRecordEntity) (found : db.record key = some r)
      (inv : FixedWindow.Inv Category.limit windowMs
        ⟨r.requestCount, r.windowStart, db.windowsOf key, db.passedBy key⟩)

/-- A command about another record. -/
def Aside (key : RecordKey) : LimiterCmd → Prop
  | .insert r _ | .save r _ | .update r _ _ => r.key ≠ key
  | _ => True

/-- What a lookup answers. -/
def Answers : (c : LimiterCmd) → c.Reply → Prop
  | .findOne userId endpoint, found => ∀ r, found = some r → r.key = (userId, endpoint)
  | _, _ => True

section Commands

variable {key : RecordKey} {db db' : LimiterDb} {r : RateLimitRecordEntity} {checked : Started}

theorem Apart.refl (key : RecordKey) (db : LimiterDb) : Apart key db db := ⟨rfl, rfl, rfl⟩

theorem Apart.trans {db'' : LimiterDb} (h : Apart key db db') (h' : Apart key db' db'') :
    Apart key db db'' :=
  ⟨h'.record.trans h.record, h'.windows.trans h.windows, h'.passed.trans h.passed⟩

theorem Counted.apart (h : Counted key db) (ha : Apart key db db') : Counted key db' := by
  cases h with
  | unused hnone hwindows hpassed =>
    exact .unused (ha.record.trans hnone) (ha.windows.trans hwindows) (ha.passed.trans hpassed)
  | counting r hfound hinv =>
    refine .counting r (ha.record.trans hfound) ?_
    rw [ha.windows, ha.passed]
    exact hinv

theorem Limited.of_counted (h : Counted key db) : Limited key db := by
  constructor
  · intro w hw category
    cases h with
    | unused _ hwindows _ =>
      rw [hwindows] at hw
      cases hw
    | counting r _ hinv => exact hinv.bounded w hw category
  · have hone := List.nodup_iff_count_le_one.mp db.unique key
    rw [List.count_eq_countP, List.countP_map] at hone
    refine le_trans (List.countP_mono_left fun r _ hr => ?_) hone
    simpa using hr

theorem record_store (db : LimiterDb) (r : RateLimitRecordEntity) (checked : Started)
    (key : RecordKey) :
    (db.store r checked).record key = if r.key = key then some r else db.record key :=
  Table.get_put RateLimitRecordEntity.key r db.records key

theorem passedBy_pass (db : LimiterDb) (key' : RecordKey) (checked : Started) (key : RecordKey) :
    (db.pass key' checked).passedBy key =
      db.passedBy key ++ if key' = key then [checked] else [] := by
  by_cases h : key' = key <;> simp [LimiterDb.passedBy, LimiterDb.pass, List.filter_append, h]

theorem passedBy_store (db : LimiterDb) (r : RateLimitRecordEntity) (checked : Started)
    (key : RecordKey) :
    (db.store r checked).passedBy key =
      db.passedBy key ++ if r.key = key then [checked] else [] :=
  passedBy_pass db r.key checked key

theorem windowsOf_storeWindow (db : LimiterDb) (r : RateLimitRecordEntity) (checked : Started)
    (key : RecordKey) :
    (db.storeWindow r checked).windowsOf key =
      db.windowsOf key ++ if r.key = key then [r.windowStart] else [] := by
  by_cases h : r.key = key <;>
    simp [LimiterDb.windowsOf, LimiterDb.storeWindow, LimiterDb.store, LimiterDb.pass, List.filter_append,
      h]

theorem apart_store (h : r.key ≠ key) (checked : Started) : Apart key db (db.store r checked) := by
  refine ⟨?_, rfl, ?_⟩
  · rw [record_store, if_neg h]
  · rw [passedBy_store, if_neg h, List.append_nil]

theorem apart_storeWindow (h : r.key ≠ key) (checked : Started) :
    Apart key db (db.storeWindow r checked) := by
  refine ⟨(apart_store h checked).record, ?_, (apart_store h checked).passed⟩
  rw [windowsOf_storeWindow, if_neg h, List.append_nil]

theorem apart_of_aside {c : LimiterCmd} {a : c.Reply} (hc : Aside key c)
    (h : exec c db = .ok (a, db')) : Apart key db db' := by
  cases c with
  | insert r checked =>
    simp only [exec] at h
    split at h
    · cases h
    · cases h
      exact apart_storeWindow hc checked
  | save r checked =>
    cases h
    exact apart_storeWindow hc checked
  | update r requestCount checked =>
    simp only [exec] at h
    split at h
    · rename_i row hrow
      cases h
      refine apart_store ?_ checked
      have hkey : row.key = r.key := Table.key_of_get RateLimitRecordEntity.key hrow
      show row.key ≠ key
      rw [hkey]
      exact hc
    · cases h
      refine ⟨rfl, rfl, ?_⟩
      rw [passedBy_pass, if_neg hc, List.append_nil]
  | _ =>
    cases h
    exact ⟨rfl, rfl, rfl⟩

theorem limit_pos (category : Category) : 1 ≤ category.limit := by
  cases category <;> decide

theorem exec_answers {c : LimiterCmd} {a : c.Reply} (h : exec c db = .ok (a, db')) :
    Answers c a := by
  cases c with
  | findOne userId endpoint =>
    cases h
    exact fun r hr => Table.key_of_get RateLimitRecordEntity.key hr
  | _ => trivial

theorem Counted.found (h : Counted key db) (hfound : db.record key = some r) :
    FixedWindow.Inv Category.limit windowMs
      ⟨r.requestCount, r.windowStart, db.windowsOf key, db.passedBy key⟩ := by
  cases h with
  | unused hnone _ _ =>
    rw [hnone] at hfound
    cases hfound
  | counting r' hfound' hinv =>
    rw [hfound] at hfound'
    cases hfound'
    exact hinv

theorem counted_storeWindow (hkey : r.key = key)
    (hinv : FixedWindow.Inv Category.limit windowMs ⟨r.requestCount, r.windowStart,
      db.windowsOf key ++ [r.windowStart], db.passedBy key ++ [checked]⟩) :
    Counted key (db.storeWindow r checked) := by
  have hpassed : (db.storeWindow r checked).passedBy key = db.passedBy key ++ [checked] := by
    show (db.store r checked).passedBy key = _
    rw [passedBy_store, if_pos hkey]
  refine .counting r ?_ ?_
  · show (db.store r checked).record key = some r
    rw [record_store, if_pos hkey]
  · rw [hpassed, windowsOf_storeWindow, if_pos hkey]
    exact hinv

/-- The first check of a record. -/
theorem Counted.first (h : Counted key db) (hnone : db.record key = none) (category : Category)
    (now : ℕ) : Counted key (db.storeWindow ⟨key.1, key.2, 1, now⟩ (category, now)) := by
  refine counted_storeWindow rfl ?_
  cases h with
  | unused _ hwindows hpassed =>
    rw [hwindows, hpassed]
    exact FixedWindow.inv_first (limit_pos category)
  | counting _ hfound _ =>
    rw [hnone] at hfound
    cases hfound

/-- A check after the window. -/
theorem Counted.expired (h : Counted key db) (hfound : db.record key = some r) {now : ℕ}
    (hexpired : (r.windowStart : ℤ) < (now : ℤ) - windowMs) (category : Category) :
    Counted key (db.storeWindow { r with requestCount := 1, windowStart := now }
      (category, now)) := by
  have hkey : r.key = key := Table.key_of_get RateLimitRecordEntity.key hfound
  refine counted_storeWindow hkey ?_
  refine (h.found hfound).next ?_ (limit_pos category)
  show r.windowStart + windowMs < now
  omega

/-- A check that the window counts. -/
theorem Counted.counts (h : Counted key db) (hfound : db.record key = some r) {now : ℕ}
    (hopen : ¬ (r.windowStart : ℤ) < (now : ℤ) - windowMs) (htimely : r.windowStart ≤ now)
    {category : Category} (hroom : r.requestCount < category.limit) :
    Counted key (db.store { r with requestCount := r.requestCount + 1 } (category, now)) := by
  have hkey : r.key = key := Table.key_of_get RateLimitRecordEntity.key hfound
  have hmore : ({ r with requestCount := r.requestCount + 1 } : RateLimitRecordEntity).key = key :=
    hkey
  refine .counting { r with requestCount := r.requestCount + 1 } ?_ ?_
  · rw [record_store, if_pos hmore]
  · rw [passedBy_store, if_pos hmore]
    refine (h.found hfound).more ?_ hroom
    rw [FixedWindow.inside_iff]
    show r.windowStart ≤ now ∧ now ≤ r.windowStart + windowMs
    omega

end Commands

-- ---------------------------------------------------------------------------
-- The checks, await by await
-- ---------------------------------------------------------------------------

/-- The checks of one record: they enter by looking it up, and are inside until
they have written. -/
def checking (key : RecordKey) : Gate LimiterCmd LimiterCmd.Reply Err LimiterDb where
  exec := exec
  mayFail := mayFail
  allows c _ _ := c.Timely
  rely := Apart key
  safe := Limited key
  rest := Counted key
  entry c := decide (c = .findOne key.1 key.2)
  body := LimiterCmd.isWrite

section Programs

variable {key : RecordKey} {db : LimiterDb} {found : Option RateLimitRecordEntity}

/-- What a check works on between its lookup and its write. -/
structure Read (key : RecordKey) (found : Option RateLimitRecordEntity) (db : LimiterDb) :
    Prop where
  counted : Counted key db
  record : db.record key = found

theorem Read.apart {db' : LimiterDb} (h : Read key found db) (ha : Apart key db db') :
    Read key found db' :=
  ⟨h.counted.apart ha, ha.record.trans h.record⟩

/-- A check that has looked its record up writes once, or not at all. -/
theorem write_secures {c : LimiterCmd} {result : PerUserRateLimitResult} (h : Read key found db)
    (hwrite : ∀ db a db', Read key found db → c.Timely → exec c db = .ok (a, db') →
      Counted key db') :
    ((await c).bind fun _ => Proc.done (.ok (some result))).Secures (checking key).toSection
      (fun _ => (checking key).rest) db :=
  Proc.secures_call_bind (A := Read key found) h (fun _ _ h ha => h.apart ha)
    (fun _ h => .of_counted h.counted)
    (fun db a db' h htimely hexec => hwrite db a db' h htimely hexec)
    fun _ _ h _ _ => h.counted

theorem check_gated (key : RecordKey) (method : String) :
    (prog (.check key.1 key.2 method)).Gated (checking key) := by
  unfold prog check
  simp only [Proc.bind_eq, Proc.bind_assoc]
  refine Proc.gated_call_bind rfl rfl (fun db a db' hexec => ?_) fun now => ?_
  · cases hexec
    exact .refl key db
  refine Proc.gated_entry_bind rfl (decide_eq_true rfl) (fun found => ?_) fun db h => ?_
  · cases found with
    | none =>
      rw [Proc.bind_assoc]
      exact Proc.issues_bind (Proc.issues_call.mpr rfl) fun _ => Proc.issues_done _
    | some record =>
      simp only
      split
      · rw [Proc.bind_assoc]
        exact Proc.issues_bind (Proc.issues_call.mpr rfl) fun _ => Proc.issues_done _
      · split
        · rw [Proc.bind_assoc]
          exact Proc.issues_bind (Proc.issues_call.mpr rfl) fun _ => Proc.issues_done _
        · exact Proc.issues_done _
  · refine Proc.secures_call_bind (A := Counted key) h (fun _ _ h ha => h.apart ha)
      (fun _ h => .of_counted h) (fun db found db' h _ hexec => ?_) fun _ _ h _ _ => h
    obtain ⟨hrecord, rfl⟩ : db.record key = found ∧ db = db' := by
      cases hexec
      exact ⟨rfl, rfl⟩
    cases found with
    | none =>
      rw [Proc.bind_assoc]
      refine write_secures ⟨h, hrecord⟩ fun db a db' hread _ hexec => ?_
      have hnone : db.record (RateLimitRecordEntity.key ⟨key.1, key.2, 1, now⟩) = none :=
        hread.record
      simp only [exec, hnone] at hexec
      cases hexec
      exact hread.counted.first hread.record (categorizeMethod method) now
    | some record =>
      simp only
      split
      · rename_i hexpired
        rw [Proc.bind_assoc]
        refine write_secures ⟨h, hrecord⟩ fun db a db' hread _ hexec => ?_
        cases hexec
        exact hread.counted.expired hread.record hexpired (categorizeMethod method)
      · rename_i hopen
        split
        · rename_i hroom
          rw [Proc.bind_assoc]
          refine write_secures ⟨h, hrecord⟩ fun db a db' hread htimely hexec => ?_
          have hrow : db.record record.key = some record := by
            rw [Table.key_of_get RateLimitRecordEntity.key hread.record]
            exact hread.record
          simp only [exec, hrow] at hexec
          cases hexec
          exact hread.counted.counts hread.record hopen htimely hroom
        · exact h

/-- A check of another record. -/
theorem check_aside {userId : UserId} {endpoint : String} (hother : (userId, endpoint) ≠ key)
    (method : String) : (prog (.check userId endpoint method)).Always Answers
      fun c _ => Aside key c := by
  unfold prog check
  simp only [Proc.bind_eq, Proc.bind_assoc]
  refine Proc.always_call_bind trivial fun now _ => ?_
  refine Proc.always_call_bind trivial fun found hfound => ?_
  cases found with
  | none =>
    rw [Proc.bind_assoc]
    exact Proc.always_call_bind hother fun _ _ => .done _
  | some record =>
    have hkey : record.key ≠ key := by
      rw [hfound record rfl]
      exact hother
    simp only
    split
    · rw [Proc.bind_assoc]
      exact Proc.always_call_bind hkey fun _ _ => .done _
    · split
      · rw [Proc.bind_assoc]
        exact Proc.always_call_bind hkey fun _ _ => .done _
      · exact .done _

theorem checks_guarded (key : RecordKey) :
    Guarded server (oneByOne key) (checking key) (LimiterCall.checks key) Answers
      (fun _ _ => Aside key) where
  exec := rfl
  mayFail := rfl
  refl := Apart.refl key
  trans _ _ _ h h' := h.trans h'
  safe _ h := .of_counted h
  rest _ _ h ha := h.apart ha
  gated i call h := by
    cases call with
    | check userId endpoint method =>
      obtain rfl := of_decide_eq_true h
      exact check_gated (userId, endpoint) method
    | tick ms => cases h
  replied _ _ _ _ h := exec_answers h
  issues i call h := by
    cases call with
    | check userId endpoint method => exact check_aside (of_decide_eq_false h) method
    | tick ms => exact Proc.always_call_bind trivial fun _ _ => .done _
  others _ _ _ _ _ _ _ hc h := apart_of_aside hc h
  allows cfg th c f h hD := (hD h).2
  alone cfg th c f h hentry hD := (hD h).1 (of_decide_eq_true hentry)

end Programs

-- ---------------------------------------------------------------------------
-- The limit
-- ---------------------------------------------------------------------------

/-- The user has not been checked on the endpoint yet. -/
structure Unused (key : RecordKey) (db : LimiterDb) : Prop where
  record : db.record key = none
  windows : db.windowsOf key = []
  passed : db.passedBy key = []

/-- **The limit of a user.** -/
theorem checks_limited {db : LimiterDb} {userId : UserId} {endpoint : String} {cfg : LimiterConfig}
    (hunused : Unused (userId, endpoint) db)
    (h : Reach server (oneByOne (userId, endpoint)) ⟨db, []⟩ cfg) :
    Limited (userId, endpoint) cfg.state := by
  have hstart : (checking (userId, endpoint)).rest db :=
    .unused hunused.record hunused.windows hunused.passed
  exact (h.guarded (checks_guarded (userId, endpoint)) rfl hstart).1

/-- Nothing has been stored. -/
def noRecords : LimiterDb := ⟨[], List.nodup_nil, 0, [], []⟩

theorem noRecords_unused (key : RecordKey) : Unused key noRecords := ⟨rfl, rfl, rfl⟩

/-- A withdrawal of user 7. -/
def withdrawal : LimiterCall := .check 7 "/withdrawals" "POST"

abbrev user7 : RecordKey := (7, "/withdrawals")

/-- The withdrawals of user 7 that started in the first minute and were allowed. -/
def firstMinute (cfg : LimiterConfig) : ℕ :=
  FixedWindow.within windowMs 0 .write (cfg.state.passedBy user7)

/-- No check is about to write. -/
def noWrites (cfg : LimiterConfig) : Bool :=
  cfg.threads.all fun th => !th.proc.waitsOn.any LimiterCmd.isWrite

/-- Both checks have started before either looks its record up. -/
def inTurn : List (Event LimiterCall Err) :=
  [.call 0 withdrawal, .call 1 withdrawal, .step 0 none, .step 1 none, .step 0 none, .step 0 none,
    .step 1 none, .step 1 none]

theorem checks_limited_two : ∃ cfg, Reach server (oneByOne user7) ⟨noRecords, []⟩ cfg ∧
    Limited user7 cfg.state ∧ firstMinute cfg = 2 := by
  have hrun : (server.runChecked (fun cfg _ c _ =>
      (!decide (c = .findOne 7 "/withdrawals") || noWrites cfg) && decide c.Timely) ⟨noRecords, []⟩
        inTurn).map firstMinute = some 2 := by decide +kernel
  obtain ⟨cfg, hcfg, hcount⟩ := Option.map_eq_some_iff.mp hrun
  have hreach : Reach server (oneByOne user7) ⟨noRecords, []⟩ cfg := by
    refine Reach.of_runChecked .refl (fun _ _ _ _ => trivial) ?_ hcfg
    intro cfg th c failed hcheck _
    simp only [Bool.and_eq_true, Bool.or_eq_true, Bool.not_eq_true', decide_eq_false_iff_not,
      decide_eq_true_eq] at hcheck
    refine ⟨fun hc => ?_, hcheck.2⟩
    exact Config.passed_of_all (E := checking user7) (hcheck.1.resolve_left (not_not.mpr hc))
  exact ⟨cfg, hreach, checks_limited (noRecords_unused user7) hreach, hcount⟩

/-- A withdrawal from its start to its end. -/
def alone (i : ℕ) : List (Event LimiterCall Err) :=
  [.call i withdrawal, .step i none, .step i none, .step i none]

/-- After a first withdrawal, twenty look the record up before any of them writes. -/
def overlapping : List (Event LimiterCall Err) :=
  alone 0 ++
    ((List.range 20).flatMap fun i => [.call (i + 1) withdrawal, .step (i + 1) none,
      .step (i + 1) none]) ++
    (List.range 20).map fun i => .step (i + 1) none

/-- After twenty withdrawals, one more starts; before it looks the record up, a
minute passes and another withdrawal opens the next window. -/
def overtaken : List (Event LimiterCall Err) :=
  (List.range 20).flatMap alone ++
    [.call 20 withdrawal, .step 20 none, .call 21 (.tick 60001), .step 21 none] ++ alone 22 ++
    [.step 20 none, .step 20 none]

theorem not_limited_of_firstMinute {cfg : LimiterConfig} (hopened : 0 ∈ cfg.state.windowsOf user7)
    (h : firstMinute cfg = 21) : ¬ Limited user7 cfg.state := by
  intro hlimited
  have hbounded : firstMinute cfg ≤ 20 := hlimited.bounded 0 hopened .write
  omega

/-- Twenty-one withdrawals that started within one minute are allowed. -/
theorem limit_exceeded :
    (∃ cfg, Reach server .free ⟨noRecords, []⟩ cfg ∧
      cfg = server.play ⟨noRecords, []⟩ overlapping ∧ ¬ Limited user7 cfg.state) ∧
    ∃ cfg, Reach server .free ⟨noRecords, []⟩ cfg ∧
      cfg = server.play ⟨noRecords, []⟩ overtaken ∧ ¬ Limited user7 cfg.state := by
  refine ⟨⟨_, Reach.refl.play _, rfl, not_limited_of_firstMinute ?_ ?_⟩,
    ⟨_, Reach.refl.play _, rfl, not_limited_of_firstMinute ?_ ?_⟩⟩
  all_goals decide +kernel

end PerUserLimits

end NexaFx
