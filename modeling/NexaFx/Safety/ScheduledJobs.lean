import NexaFx.Lib.Lease
import NexaFx.Model.Transactions

/-!
# NexaFx — the locks of the reconciliation job

Any number of runs of `reconcilePendingTransactions` among the other calls of
the services, interleaved at every await, with time passing. A run sets the job
lock for `lockTtlMs` and deletes it at its end, and does the same with a lock
per transaction. The value of a lock is the same for all runs, so a run that has
outlived its lock deletes whatever is stored by then.

`JobState` keeps with the tables who set each lock last and who is inside. When
no run that has outlived its lock deletes one that has not expired, the locks
exclude (`jobs_exclusive`); otherwise two runs are inside at once
(`two_runs_inside`).
-/

namespace NexaFx

open Async

namespace Jobs

-- ---------------------------------------------------------------------------
-- The services with a log of the locks
-- ---------------------------------------------------------------------------

/-- The tables, and what is logged of the locks in Redis. -/
structure JobState where
  db : Db
  owner : LockKey → Option ℕ
  inside : List (LockKey × ℕ × Time)
  stolen : List (LockKey × ℕ)

/-- The locks in Redis with the log. -/
def JobState.leases (st : JobState) : Lease.Store LockKey ℕ :=
  ⟨st.db.locks, st.db.now, st.owner, st.inside, st.stolen⟩

/-- The log of a command of call `i`: setting a lock enters its section, and
deleting it leaves the section. -/
def JobState.log (st : JobState) (i : ℕ) : (c : Cmd) → c.Reply → Db → JobState
  | .acquireLock key, acquired, db =>
    if acquired = true then
      let leases := st.leases.acquire key i st.db.settings.lockTtlMs
      ⟨db, leases.owner, leases.inside, leases.stolen⟩
    else { st with db := db }
  | .releaseLock key, _, db =>
    let leases := st.leases.release key i
    ⟨db, leases.owner, leases.inside, leases.stolen⟩
  | _, _, db => { st with db := db }

/-- A command with the call that issues it. -/
abbrev JobCmd := ℕ × Cmd

@[reducible] def JobReply (c : JobCmd) : Type := c.2.Reply

def execLogged : (c : JobCmd) → JobState → Except Err (JobReply c × JobState) := fun c st =>
  match exec c.2 st.db with
  | .error e => .error e
  | .ok (a, db) => .ok (a, st.log c.1 c.2 a db)

/-- All calls of the services, the runs of the job among them. -/
def jobServer : System Call JobCmd JobReply Err JobState (Option Transaction) where
  prog i call := (prog i call).embed (fun c => (i, c)) (fun _ r => r) id
  exec := execLogged
  mayFail c := mayFail c.2

abbrev JobConfig := Config Call JobCmd JobReply Err JobState (Option Transaction)

/-- No call has been made; whatever is stored in Redis was set by nobody. -/
def jobStart (db : Db) : JobConfig := ⟨⟨db, fun _ => none, [], []⟩, []⟩

-- ---------------------------------------------------------------------------
-- The property
-- ---------------------------------------------------------------------------

structure LocksExclude (st : JobState) : Prop where
  /-- At most one run is inside that has not outlived its own lock. -/
  one : ∀ key i j expiry expiry', st.leases.Lasting key i expiry →
    st.leases.Lasting key j expiry' → i = j
  /-- No release has deleted the lock of another run. -/
  released : st.stolen = []

/-- A run that has outlived its lock deletes none that has not expired. -/
def timelyRelease : Discipline Call JobCmd JobReply Err JobState (Option Transaction) where
  onCall _ _ _ := True
  onStep cfg _ c failed := ∀ key, c.2 = .releaseLock key → failed = false →
    (∃ expiry, cfg.state.leases.Lasting key c.1 expiry) ∨ cfg.state.leases.locked key = false

-- ---------------------------------------------------------------------------
-- Commands
-- ---------------------------------------------------------------------------

section Commands

variable {st st' : JobState} {i : ℕ}

theorem leases_steady {db : Db} (h : st.db.Steady db) :
    JobState.leases { st with db := db } = st.leases := by
  unfold JobState.leases
  rw [h.locks, h.now]

/-- A lock is set exactly if none is stored that has not expired. -/
theorem acquireLock_eq (db : Db) (key : LockKey) : db.acquireLock key =
    if (Table.get Prod.fst db.locks key).any fun l => decide (db.now < l.2) then (false, db)
    else (true, { db with
      locks := Table.put Prod.fst (key, db.now + db.settings.lockTtlMs) db.locks }) := by
  unfold Db.acquireLock
  cases hget : Table.get Prod.fst db.locks key with
  | none => rfl
  | some l =>
    by_cases hlocked : db.now < l.2
    · simp [hlocked]
    · simp [hlocked]

/-- **Step lemma.** -/
theorem guarded_step {c : JobCmd} {a : JobReply c} (h : Lease.Guarded st.leases)
    (hexec : execLogged c st = .ok (a, st'))
    (htimely : ∀ key, c.2 = .releaseLock key →
      (∃ expiry, st.leases.Lasting key c.1 expiry) ∨ st.leases.locked key = false) :
    Lease.Guarded st'.leases := by
  obtain ⟨i, c⟩ := c
  unfold execLogged at hexec
  cases hrun : exec c st.db with
  | error e =>
    simp only [hrun] at hexec
    cases hexec
  | ok r =>
    obtain ⟨b, db⟩ := r
    simp only [hrun] at hexec
    cases hexec
    cases htimed : c.timed with
    | false =>
      have hsteady := exec_steady hrun htimed
      have hlog : st.log i c a db = { st with db := db } := by
        cases c <;> first | rfl | cases htimed
      rw [hlog, leases_steady hsteady]
      exact h
    | true =>
      cases c with
      | acquireLock key =>
        have hacquire : st.db.acquireLock key = (a, db) := Except.ok.inj hrun
        rw [acquireLock_eq] at hacquire
        split at hacquire
        · cases hacquire
          exact h
        · rename_i hfree
          cases hacquire
          have hunlocked : st.leases.locked key = false := Bool.eq_false_iff.mpr hfree
          exact h.acquire hunlocked i _
      | releaseLock key =>
        cases hrun
        exact h.release (htimely key rfl)
      | tick ms =>
        cases hrun
        exact h.pass (Nat.le_add_right ..)
      | _ => cases htimed

end Commands

/-- **The locks exclude.** -/
theorem jobs_exclusive {db : Db} {cfg : JobConfig}
    (h : Reach jobServer timelyRelease (jobStart db) cfg) : LocksExclude cfg.state := by
  have hguarded : Lease.Guarded cfg.state.leases := by
    refine h.invariant (I := fun cfg => Lease.Guarded cfg.state.leases) ?init ?call ?step
    case init =>
      refine ⟨fun key i expiry hlasting => ?_, rfl⟩
      cases hlasting.1
    case call => exact fun _ _ _ hguarded _ _ => hguarded
    case step =>
      intro cfg i fault th c next hguarded _ _ _ _ hD
      cases hout : outcome fault (jobServer.exec c cfg.state) with
      | error e => exact hguarded
      | ok r =>
        rw [hout] at hD
        exact guarded_step hguarded (outcome_eq_ok hout).2 fun key hc => hD key hc rfl
  exact ⟨fun key i j expiry expiry' hi hj => hguarded.unique hi hj, hguarded.none⟩

-- ---------------------------------------------------------------------------
-- Who is inside
-- ---------------------------------------------------------------------------

/-- Any command but the release of the job lock. -/
def KeepsJob (c : Cmd) : Prop := c ≠ .releaseLock RECONCILE_JOB

section Inside

variable {st st' : JobState} {key : LockKey} {i : ℕ} {expiry : Time}

/-- A mark stays until its call deletes the lock. -/
theorem inside_execLogged {c : JobCmd} {a : JobReply c} (hexec : execLogged c st = .ok (a, st'))
    (hmark : (key, i, expiry) ∈ st.inside) (hc : c ≠ (i, .releaseLock key)) :
    (key, i, expiry) ∈ st'.inside := by
  obtain ⟨j, c⟩ := c
  unfold execLogged at hexec
  cases hrun : exec c st.db with
  | error e =>
    simp only [hrun] at hexec
    cases hexec
  | ok r =>
    simp only [hrun] at hexec
    cases hexec
    cases c with
    | acquireLock key' =>
      rw [JobState.log]
      split
      · exact List.mem_cons_of_mem _ hmark
      · exact hmark
    | releaseLock key' =>
      refine List.mem_filter.mpr ⟨hmark, ?_⟩
      have hother : ¬ (key = key' ∧ i = j) := by
        rintro ⟨rfl, rfl⟩
        exact hc rfl
      simp only [Bool.not_eq_true', decide_eq_false_iff_not]
      exact hother
    | _ => exact hmark

/-- Who sets the lock is inside. -/
theorem inside_acquired (hexec : execLogged (i, .acquireLock key) st = .ok (true, st')) :
    ∃ expiry, (key, i, expiry) ∈ st'.inside := by
  unfold execLogged at hexec
  cases hrun : exec (.acquireLock key) st.db with
  | error e =>
    simp only [hrun] at hexec
    cases hexec
  | ok r =>
    simp only [hrun] at hexec
    obtain ⟨acquired, db⟩ := r
    obtain ⟨rfl, rfl⟩ := Prod.mk.inj (Except.ok.inj hexec)
    exact ⟨_, List.mem_cons_self ..⟩

theorem reconcileBody_keeps : reconcileBody.Issues KeepsJob := by
  have hrows : ∀ rows : List Transaction, (failTimedOut rows).Issues KeepsJob := by
    intro rows
    induction rows with
    | nil => exact Proc.issues_done _
    | cons tx rows ih =>
      refine Proc.issues_bind (Proc.issues_call.mpr nofun) fun acquired => ?_
      cases acquired with
      | true =>
        refine Proc.issues_bind (k := fun _ => failTimedOut rows) ?_ fun _ => ih
        refine Proc.issues_bind (Proc.issues_attempt (Proc.issues_call.mpr nofun)) fun r => ?_
        exact Proc.issues_bind (Proc.issues_call.mpr nofun) fun _ => Proc.issues_ofExcept r
      | false => exact ih
  refine Proc.issues_bind (Proc.issues_call.mpr nofun) fun t => ?_
  exact Proc.issues_bind (Proc.issues_call.mpr nofun) fun rows => hrows rows

/-- Once the job lock is released, a run has done with it. -/
theorem reconcile_once (i : ℕ) : (prog i .reconcile).Always (fun _ _ => True)
    fun c next => ¬ KeepsJob c → ∀ r, (next r).Issues KeepsJob := by
  simp only [prog, reconcilePendingTransactions, Proc.bind_eq, Proc.bind_assoc]
  refine Proc.always_call_bind (fun hnot => absurd nofun hnot) fun acquired _ => ?_
  cases acquired with
  | false => exact .done _
  | true =>
    simp only [if_true, Proc.ensure, Proc.bind_eq, Proc.bind_assoc]
    refine Proc.always_bind_of_issues (Proc.issues_attempt reconcileBody_keeps)
      (fun _ _ hc hnot => absurd hc hnot) fun r => ?_
    refine Proc.always_call_bind (fun _ r' => ?_) fun _ _ => ?_
    · cases r' with
      | error e => trivial
      | ok _ => cases r <;> trivial
    · cases r <;> exact .done _

end Inside

/-- A command of call `i`, which is not the release of the job lock. -/
def keepsJobOf (i : ℕ) (c : JobCmd) : Prop := c ≠ (i, .releaseLock RECONCILE_JOB)

/-- What is known of a run of the job. -/
structure RunKnown (i : ℕ) (st : JobState) (th : Thread Call JobCmd JobReply Err (Option Transaction)) :
    Prop where
  fresh : th.begun = false → th.proc = jobServer.prog i .reconcile
  marked : th.begun = true → (∃ expiry, (RECONCILE_JOB, i, expiry) ∈ st.inside) ∨
    th.proc.Issues (keepsJobOf i)

/-- **Who is inside.** A run that has begun and has the release of the job lock
in front of it is inside. -/
theorem inside_of_release_ahead {db : Db}
    {D : Discipline Call JobCmd JobReply Err JobState (Option Transaction)} {cfg : JobConfig}
    (h : Reach jobServer D (jobStart db) cfg) {i : ℕ}
    {th : Thread Call JobCmd JobReply Err (Option Transaction)} (hth : cfg.thread i = some th)
    (hcall : th.call = .reconcile) (hbegun : th.begun = true)
    (hahead : ¬ th.proc.Issues (keepsJobOf i)) :
    ∃ expiry, (RECONCILE_JOB, i, expiry) ∈ cfg.state.inside := by
  have hknown := h.invariant_always
    (I := fun cfg => ∀ i th, cfg.thread i = some th → th.call = .reconcile →
      RunKnown i cfg.state th)
    (G := fun _ _ => True)
    (Q := fun i k c next => c.1 = i ∧ (k = .reconcile → ¬ keepsJobOf i c → ∀ r,
      (next r).Issues (keepsJobOf i)))
    ?init rfl ?prog ?call ?step
  case init =>
    intro i th hth
    cases hth
  case prog =>
    intro i k
    refine Proc.Always.and ?_ ?_
    · refine Proc.always_of_issues (P := fun c : JobCmd => c.1 = i) (fun _ _ hc => hc) ?_
      refine Proc.issues_embed (P := fun _ => True) ?_ (Proc.issues_true _)
      exact fun _ _ => rfl
    · by_cases hk : k = .reconcile
      · subst hk
        refine Proc.always_embed (fun _ _ _ => trivial) (fun c next hc _ hnot r => ?_)
          (reconcile_once i)
        refine Proc.issues_embed (P := KeepsJob) (fun c hkeeps heq => hkeeps ?_) (hc ?_ _)
        · exact (Prod.mk.inj heq).2
        · exact fun hkeeps => hnot fun heq => hkeeps (Prod.mk.inj heq).2
      · exact Proc.always_of_issues (P := fun _ => True) (fun _ _ _ h => absurd h hk)
          (Proc.issues_true _)
  case call =>
    intro cfg i k hI _ _ j th hth hcall
    rcases Config.thread_spawn_cases hth with ⟨rfl, rfl⟩ | hold
    · obtain rfl : k = .reconcile := hcall
      exact ⟨fun _ => rfl, nofun⟩
    · exact hI j th hold hcall
  case step =>
    intro cfg j fault th c next hI hth hproc hQ _
    refine ⟨fun l th' hth' hcall' => ?_, fun _ _ _ => trivial⟩
    obtain ⟨hmine, honce⟩ := hQ
    -- marks of this state, unless the call releases the job lock now
    have hstays : ∀ i, c ≠ (i, .releaseLock RECONCILE_JOB) →
        (∃ expiry, (RECONCILE_JOB, i, expiry) ∈ cfg.state.inside) →
        ∃ expiry, (RECONCILE_JOB, i, expiry) ∈
          (after (outcome fault (jobServer.exec c cfg.state)) cfg.state).inside := by
      rintro i hc ⟨expiry, hmark⟩
      cases hout : outcome fault (jobServer.exec c cfg.state) with
      | error e => exact ⟨expiry, hmark⟩
      | ok r => exact ⟨expiry, inside_execLogged (outcome_eq_ok hout).2 hmark hc⟩
    by_cases hlj : l = j
    · subst hlj
      rw [Config.thread_resume, if_pos (Config.id_of_thread hth)] at hth'
      cases hth'
      refine ⟨nofun, fun _ => ?_⟩
      obtain ⟨hfresh, hmarked⟩ := hI l th hth hcall'
      by_cases hrelease : c = (l, .releaseLock RECONCILE_JOB)
      · exact Or.inr (honce hcall' (not_not.mpr hrelease) _)
      · cases hbegun : th.begun with
        | true =>
          rcases hmarked hbegun with hmark | hissues
          · exact Or.inl (hstays l hrelease hmark)
          · rw [hproc] at hissues
            exact Or.inr (hissues.2 _)
        | false =>
          -- the first step of the run
          have hfirst := hproc.symm.trans (hfresh hbegun)
          cases hfirst
          cases hout : outcome fault (jobServer.exec (l, .acquireLock RECONCILE_JOB) cfg.state) with
          | error e => exact Or.inr trivial
          | ok r =>
            obtain ⟨acquired, st'⟩ := r
            cases acquired with
            | true => exact Or.inl (inside_acquired (outcome_eq_ok hout).2)
            | false => exact Or.inr trivial
    · rw [Config.thread_resume_ne hth hlj] at hth'
      obtain ⟨hfresh, hmarked⟩ := hI l th' hth' hcall'
      refine ⟨hfresh, fun hbegun => (hmarked hbegun).imp (hstays l ?_) id⟩
      rintro rfl
      exact hlj hmine
  exact ((hknown.1 i th hth hcall).marked hbegun).resolve_right hahead

-- ---------------------------------------------------------------------------
-- Runs of the job
-- ---------------------------------------------------------------------------

/-- A run is inside whose lock lasts. -/
def lastingRun (st : JobState) (key : LockKey) (i : ℕ) : Bool :=
  st.inside.any fun m => decide (m.1 = key ∧ m.2.1 = i ∧ st.db.now < m.2.2)

theorem lasting_of_lastingRun {st : JobState} {key : LockKey} {i : ℕ}
    (h : lastingRun st key i = true) : ∃ expiry, st.leases.Lasting key i expiry := by
  obtain ⟨⟨key', j, expiry⟩, hmem, hmark⟩ := List.any_eq_true.mp h
  obtain ⟨rfl, rfl, hlasts⟩ := of_decide_eq_true hmark
  exact ⟨expiry, hmem, hlasts⟩

/-- `timelyRelease`, as a check of steps. -/
def timelyCheck (cfg : JobConfig) (c : JobCmd) : Bool :=
  match c.2 with
  | .releaseLock key => lastingRun cfg.state key c.1 || !cfg.state.leases.locked key
  | _ => true

/-- The three runs that are made, and the clock. -/
def jobCalls (ms : ℕ) : List (Event Call Err) :=
  [.call 0 .reconcile, .call 1 .reconcile, .call 2 .reconcile, .call 3 (.tick ms)]

/-- The first run is done in time; the second finds the job locked, the third
does not. -/
def runsInTime : List (Event Call Err) :=
  jobCalls 1000 ++ [.step 0 none, .step 3 none, .step 1 none, .step 0 none, .step 0 none,
    .step 0 none, .step 2 none]

theorem jobs_exclusive_in_time :
    ∃ cfg, Reach jobServer timelyRelease (jobStart (.deployed [])) cfg ∧
      LocksExclude cfg.state ∧ lastingRun cfg.state RECONCILE_JOB 2 = true := by
  have hrun : (jobServer.runChecked (fun cfg _ c _ => timelyCheck cfg c) (jobStart (.deployed []))
      runsInTime).map (fun cfg => lastingRun cfg.state RECONCILE_JOB 2) = some true := by
    decide +kernel
  obtain ⟨cfg, hcfg, hinside⟩ := Option.map_eq_some_iff.mp hrun
  have hreach : Reach jobServer timelyRelease (jobStart (.deployed [])) cfg := by
    refine Reach.of_runChecked .refl (fun _ _ _ _ => trivial) ?_ hcfg
    intro cfg th c failed hcheck key hkey _
    unfold timelyCheck at hcheck
    rw [hkey] at hcheck
    simp only [Bool.or_eq_true, Bool.not_eq_true'] at hcheck
    exact hcheck.imp lasting_of_lastingRun id
  exact ⟨cfg, hreach, jobs_exclusive hreach, hinside⟩

/-- The first run outlives its lock, and deletes that of the second. -/
def outlived : List (Event Call Err) :=
  jobCalls 300001 ++ [.step 0 none, .step 3 none, .step 1 none, .step 0 none, .step 0 none,
    .step 0 none, .step 2 none]

/-- The second and the third run are both inside, with locks that last. -/
theorem two_runs_inside :
    ∃ cfg, Reach jobServer .free (jobStart (.deployed [])) cfg ∧ ¬ LocksExclude cfg.state ∧
      cfg.state.stolen = [(RECONCILE_JOB, 0)] := by
  have hone : lastingRun (jobServer.play (jobStart (.deployed [])) outlived).state
      RECONCILE_JOB 1 = true := by decide +kernel
  have htwo : lastingRun (jobServer.play (jobStart (.deployed [])) outlived).state
      RECONCILE_JOB 2 = true := by decide +kernel
  obtain ⟨expiry, hone⟩ := lasting_of_lastingRun hone
  obtain ⟨expiry', htwo⟩ := lasting_of_lastingRun htwo
  refine ⟨_, Reach.refl.play outlived, fun h => ?_, by decide +kernel⟩
  exact absurd (h.one _ _ _ _ _ hone htwo) (by decide)

end Jobs

end NexaFx
