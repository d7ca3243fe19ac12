import NexaFx.Model.BalanceLoads

/-!
# NexaFx — balance loads are single-flight

`getWalletBalances` waits for its cache lookup before it consults
`pendingFetches`, so any number of calls may have missed together. The pending
entry of a user is the one fetch that was started and is not settled
(`Inv.pending`): it is set in one go with the start, and deleted in one go with
the end, whether the loader rejects, the write does, or neither.

A call ends as its fetch does, and a fetch as its loader does only if the write
goes through. Where the lookup rejects, the call ends with that
(`balances_single_flight`, `answers_beyond_loader`).
-/

namespace NexaFx

open Async

namespace BalanceLoads

variable {B E : Type}

-- ---------------------------------------------------------------------------
-- The property
-- ---------------------------------------------------------------------------

/-- Call `i` asks for the balances of the user. -/
def Asks (run : LoadRun B E) (i : ℕ) (userId : UserId) : Prop :=
  ∃ b, run.cfg.called i = some (.getWalletBalances userId b)

/-- The fetch that call `f` has started for the user has not ended. -/
structure InProgress (run : LoadRun B E) (userId : UserId) (f : ℕ) : Prop where
  asks : Asks run f userId
  started : run.notes.joined f = some f
  unsettled : run.cfg.state.settled f = none

/-- The ends of a fetch: its loader or its write rejects, or the balances are
loaded and written. -/
inductive EndsWith (notes : Notes B E) (f : ℕ) : Except E B → Prop
  | loaderRejects (e : E) (loaded : notes.loaded f = some (.error e)) : EndsWith notes f (.error e)
  | writeRejects (b : B) (e : E) (loaded : notes.loaded f = some (.ok b))
      (written : notes.written f = some (.error e)) : EndsWith notes f (.error e)
  | written (b : B) (loaded : notes.loaded f = some (.ok b))
      (written : notes.written f = some (.ok ())) : EndsWith notes f (.ok b)

/-- The balances were in the cache from the beginning, or a loader of the user
resolved with them. -/
def Loaded (cache : UserId → Option B) (run : LoadRun B E) (userId : UserId) (b : B) : Prop :=
  cache userId = some b ∨ ∃ f, Asks run f userId ∧ run.notes.loaded f = some (.ok b)

/-- The ends of a call: with what its lookup found, with the error of its lookup,
or as the fetch that it started or found. -/
inductive Answered (run : LoadRun B E) (i : ℕ) (userId : UserId) : Except E (Option B) → Prop
  | cached (b : B) (looked : run.notes.looked i = some (.ok (some b))) :
      Answered run i userId (.ok (some b))
  | lookupRejects (e : E) (looked : run.notes.looked i = some (.error e)) :
      Answered run i userId (.error e)
  | fetched (f : ℕ) (r : Except E B) (joined : run.notes.joined i = some f)
      (asks : Asks run f userId) (settled : run.cfg.state.settled f = some r) :
      Answered run i userId (r.map some)

structure SingleFlight (cache : UserId → Option B) (run : LoadRun B E) : Prop where
  one : ∀ userId f g, InProgress run userId f → InProgress run userId g → f = g
  loader : ∀ i th userId b next, run.cfg.thread i = some th →
    th.proc = .await (.loader userId b) next → InProgress run userId i
  answered : ∀ i th userId b r, run.cfg.thread i = some th →
    th.call = .getWalletBalances userId b → th.proc = .done r → Answered run i userId r
  ended : ∀ f r, run.cfg.state.settled f = some r → EndsWith run.notes f r
  looked : ∀ i userId b, Asks run i userId → run.notes.looked i = some (.ok (some b)) →
    Loaded cache run userId b
  cached : ∀ userId b, run.cfg.state.cache userId = some b → Loaded cache run userId b
  pending : ∀ userId f, run.cfg.state.pendingFetches userId = some f ↔ InProgress run userId f

/-- A call that goes for a fetch joins the one that is in progress for its user;
where there is none it starts one. -/
def Joins (run next : LoadRun B E) : Prop :=
  ∀ i f, run.notes.joined i = none → next.notes.joined i = some f → ∃ userId, Asks run i userId ∧
    (InProgress run userId f ∨
      (∀ g, ¬ InProgress run userId g) ∧ f = i ∧ InProgress next userId i)

/-- The event is about a call for the user. -/
def concerns (run : LoadRun B E) (userId : UserId) (e : Event (LoadCall B) E) : Bool :=
  decide ((run.cfg.called e.id).map LoadCall.userId = some userId)

/-- The notes of call `j` are the same. -/
structure SameAt (run run' : LoadRun B E) (j : ℕ) : Prop where
  looked : run'.notes.looked j = run.notes.looked j
  joined : run'.notes.joined j = run.notes.joined j
  loaded : run'.notes.loaded j = run.notes.loaded j
  written : run'.notes.written j = run.notes.written j
  settled : run'.cfg.state.settled j = run.cfg.state.settled j

/-- Nothing that is the user's differs in the two runs, and in the second there
is nothing else. -/
structure SameFor (userId : UserId) (run alone : LoadRun B E) : Prop where
  cache : alone.cfg.state.cache userId = run.cfg.state.cache userId
  pending : alone.cfg.state.pendingFetches userId = run.cfg.state.pendingFetches userId
  threads : ∀ i, alone.cfg.thread i =
    (run.cfg.thread i).filter fun th => decide (th.call.userId = userId)
  calls : ∀ i, (run.cfg.called i).map LoadCall.userId = some userId → SameAt run alone i

-- ---------------------------------------------------------------------------
-- What is left of a call
-- ---------------------------------------------------------------------------

abbrev Rest (B E : Type) := LoadProc B E (Option B)

def waiting (f : ℕ) : Rest B E := (await (.fetched f)).bind fun b => .done (.ok (some b))

def finishing (i f : ℕ) (userId : UserId) (r : Except E B) : Rest B E :=
  (await (.finish i userId r)).bind fun _ => waiting f

def writing (i f : ℕ) (userId : UserId) (b : B) : Rest B E :=
  .await (.cacheSet userId b) fun r => finishing i f userId (r.map fun _ => b)

def loading (i f : ℕ) (userId : UserId) (b : B) : Rest B E :=
  .await (.loader userId b) fun r =>
    match r with
    | .ok b => writing i f userId b
    | .error e => finishing i f userId (.error e)

def consulting (i : ℕ) (userId : UserId) (b : B) : Rest B E :=
  (await (.startFetch i userId)).bind fun (f, isNew) =>
    if isNew = true then loading i f userId b else waiting f

def looking (i : ℕ) (userId : UserId) (b : B) : Rest B E :=
  (await (.cacheGet userId)).bind fun
    | some cached => .done (.ok (some cached))
    | none => consulting i userId b

theorem runFetch_bind (i f : ℕ) (userId : UserId) (b : B) :
    (runFetch i userId b).bind (fun _ => waiting f) = (loading i f userId b : Rest B E) := by
  unfold runFetch
  simp only [Proc.bind_eq, Proc.bind_assoc]
  refine congrArg (Proc.await (LoadCmd.loader userId b)) (funext fun r => ?_)
  cases r with
  | error e => rfl
  | ok b =>
    refine congrArg (Proc.await (LoadCmd.cacheSet userId b)) (funext fun r => ?_)
    cases r <;> rfl

theorem loadProg_getWalletBalances (i : ℕ) (userId : UserId) (b : B) :
    loadProg i (.getWalletBalances userId b) = (looking i userId b : Rest B E) := by
  unfold loadProg getWalletBalances looking
  simp only [Proc.bind_eq, Proc.bind_assoc]
  congr 1
  funext cached
  cases cached with
  | some cached => rfl
  | none =>
    simp only [consulting, Proc.bind_assoc]
    congr 1
    funext found
    obtain ⟨f, isNew⟩ := found
    cases isNew with
    | false => rfl
    | true =>
      rw [if_pos rfl, if_pos rfl, Proc.bind_assoc]
      exact runFetch_bind i f userId b

-- ---------------------------------------------------------------------------
-- How far a call has come
-- ---------------------------------------------------------------------------

/-- The call has started no fetch. -/
structure Unstarted (run : LoadRun B E) (i : ℕ) : Prop where
  joined : run.notes.joined i = none
  loaded : run.notes.loaded i = none
  written : run.notes.written i = none
  settled : run.cfg.state.settled i = none

inductive Stage (run : LoadRun B E) (i : ℕ) : LoadCall B → Rest B E → Prop
  | looking {userId : UserId} {b : B} (unlooked : run.notes.looked i = none)
      (unstarted : Unstarted run i) : Stage run i (.getWalletBalances userId b) (looking i userId b)
  | consulting {userId : UserId} {b : B} (unstarted : Unstarted run i) :
      Stage run i (.getWalletBalances userId b) (consulting i userId b)
  | loading {userId : UserId} {b : B} (started : run.notes.joined i = some i)
      (unsettled : run.cfg.state.settled i = none) (unloaded : run.notes.loaded i = none)
      (unwritten : run.notes.written i = none) :
      Stage run i (.getWalletBalances userId b) (loading i i userId b)
  | writing {userId : UserId} {b b' : B} (started : run.notes.joined i = some i)
      (unsettled : run.cfg.state.settled i = none) (loaded : run.notes.loaded i = some (.ok b'))
      (unwritten : run.notes.written i = none) :
      Stage run i (.getWalletBalances userId b) (writing i i userId b')
  | finishing {userId : UserId} {b : B} {r : Except E B} (started : run.notes.joined i = some i)
      (unsettled : run.cfg.state.settled i = none) (ends : EndsWith run.notes i r) :
      Stage run i (.getWalletBalances userId b) (finishing i i userId r)
  | waiting {userId : UserId} {b : B} {f : ℕ} (joined : run.notes.joined i = some f)
      (asks : Asks run f userId) : Stage run i (.getWalletBalances userId b) (waiting f)
  | answered {userId : UserId} {b : B} {r : Except E (Option B)} (ends : Answered run i userId r) :
      Stage run i (.getWalletBalances userId b) (.done r)
  | deleting {userId : UserId} :
      Stage run i (.invalidateWalletBalanceCache userId)
        ((await (.cacheDel userId)).bind fun _ => .done (.ok none))
  | deleted {userId : UserId} (r : Except E (Option B)) :
      Stage run i (.invalidateWalletBalanceCache userId) (.done r)
  | expiring {userId : UserId} :
      Stage run i (.expire userId) ((await (.expire userId)).bind fun _ => .done (.ok none))
  | expired {userId : UserId} (r : Except E (Option B)) : Stage run i (.expire userId) (.done r)

/-- What holds throughout a run. -/
structure Inv (cache : UserId → Option B) (run : LoadRun B E) : Prop where
  stages : ∀ i th, run.cfg.thread i = some th → Stage run i th.call th.proc
  fresh : ∀ i, run.cfg.thread i = none → run.notes.looked i = none ∧ Unstarted run i
  pending : ∀ userId f, run.cfg.state.pendingFetches userId = some f ↔ InProgress run userId f
  ended : ∀ f r, run.cfg.state.settled f = some r → EndsWith run.notes f r
  looked : ∀ i userId b, Asks run i userId → run.notes.looked i = some (.ok (some b)) →
    Loaded cache run userId b
  cached : ∀ userId b, run.cfg.state.cache userId = some b → Loaded cache run userId b

-- ---------------------------------------------------------------------------
-- What is noted stays
-- ---------------------------------------------------------------------------

/-- Of call `j` only what was open has been noted. -/
structure GrowsAt (run run' : LoadRun B E) (j : ℕ) : Prop where
  looked : ∀ r, run.notes.looked j = some r → run'.notes.looked j = some r
  joined : ∀ f, run.notes.joined j = some f → run'.notes.joined j = some f
  loaded : ∀ r, run.notes.loaded j = some r → run'.notes.loaded j = some r
  written : ∀ r, run.notes.written j = some r → run'.notes.written j = some r
  settled : ∀ r, run.cfg.state.settled j = some r → run'.cfg.state.settled j = some r

structure Grows (run run' : LoadRun B E) : Prop where
  called : ∀ j k, run.cfg.called j = some k → run'.cfg.called j = some k
  at_ : ∀ j, GrowsAt run run' j

section Grows

variable {cache : UserId → Option B} {run run' : LoadRun B E} {i j : ℕ} {userId : UserId}

theorem SameAt.grows (h : SameAt run run' j) : GrowsAt run run' j :=
  ⟨fun _ hr => h.looked.trans hr, fun _ hf => h.joined.trans hf, fun _ hr => h.loaded.trans hr,
    fun _ hr => h.written.trans hr, fun _ hr => h.settled.trans hr⟩

theorem grows_of_beside (hcalled : ∀ j, run'.cfg.called j = run.cfg.called j)
    (hsame : ∀ j, j ≠ i → SameAt run run' j) (hself : GrowsAt run run' i) : Grows run run' := by
  refine ⟨fun j k hk => (hcalled j).trans hk, fun j => ?_⟩
  by_cases hj : j = i
  · rw [hj]
    exact hself
  · exact (hsame j hj).grows

theorem Asks.mono (h : Asks run i userId) (hgrows : Grows run run') : Asks run' i userId :=
  h.imp fun _ hb => hgrows.called _ _ hb

theorem EndsWith.mono {r : Except E B} (h : EndsWith run.notes i r) (hgrows : GrowsAt run run' i) :
    EndsWith run'.notes i r := by
  cases h with
  | loaderRejects e loaded => exact .loaderRejects e (hgrows.loaded _ loaded)
  | writeRejects b e loaded written =>
    exact .writeRejects b e (hgrows.loaded _ loaded) (hgrows.written _ written)
  | written b loaded written => exact .written b (hgrows.loaded _ loaded) (hgrows.written _ written)

theorem Loaded.mono {b : B} (h : Loaded cache run userId b) (hgrows : Grows run run') :
    Loaded cache run' userId b :=
  h.imp id fun ⟨f, hasks, hloaded⟩ => ⟨f, hasks.mono hgrows, (hgrows.at_ f).loaded _ hloaded⟩

theorem Answered.mono {r : Except E (Option B)} (h : Answered run i userId r)
    (hgrows : Grows run run') : Answered run' i userId r := by
  cases h with
  | cached b looked => exact .cached b ((hgrows.at_ i).looked _ looked)
  | lookupRejects e looked => exact .lookupRejects e ((hgrows.at_ i).looked _ looked)
  | fetched f r joined asks settled =>
    exact .fetched f r ((hgrows.at_ i).joined _ joined) (asks.mono hgrows)
      ((hgrows.at_ f).settled _ settled)

theorem Unstarted.congr (h : Unstarted run j) (hsame : SameAt run run' j) : Unstarted run' j :=
  ⟨hsame.joined.trans h.joined, hsame.loaded.trans h.loaded, hsame.written.trans h.written,
    hsame.settled.trans h.settled⟩

/-- A step of another call. -/
theorem Stage.frame {k : LoadCall B} {p : Rest B E} (h : Stage run j k p) (hgrows : Grows run run')
    (hsame : SameAt run run' j) : Stage run' j k p := by
  have hjoined := fun {f : ℕ} (h : run.notes.joined j = some f) => hsame.joined.trans h
  have hunsettled := fun (h : run.cfg.state.settled j = none) => hsame.settled.trans h
  cases h with
  | looking unlooked unstarted =>
    exact .looking (hsame.looked.trans unlooked) (unstarted.congr hsame)
  | consulting unstarted => exact .consulting (unstarted.congr hsame)
  | loading started unsettled unloaded unwritten =>
    exact .loading (hjoined started) (hunsettled unsettled) (hsame.loaded.trans unloaded)
      (hsame.written.trans unwritten)
  | writing started unsettled loaded unwritten =>
    exact .writing (hjoined started) (hunsettled unsettled) (hsame.loaded.trans loaded)
      (hsame.written.trans unwritten)
  | finishing started unsettled ends =>
    exact .finishing (hjoined started) (hunsettled unsettled) (ends.mono hsame.grows)
  | waiting joined asks => exact .waiting (hjoined joined) (asks.mono hgrows)
  | answered ends => exact .answered (ends.mono hgrows)
  | deleting => exact .deleting
  | deleted r => exact .deleted r
  | expiring => exact .expiring
  | expired r => exact .expired r

theorem asks_congr (h : run'.cfg.called i = run.cfg.called i) :
    Asks run' i userId ↔ Asks run i userId := by
  rw [Asks, h, Asks]

theorem Asks.unique {userId' : UserId} (h : Asks run i userId) (h' : Asks run i userId') :
    userId = userId' := by
  obtain ⟨b, hb⟩ := h
  obtain ⟨b', hb'⟩ := h'
  cases hb.symm.trans hb'
  rfl

theorem inProgress_congr (hcalled : run'.cfg.called i = run.cfg.called i)
    (hjoined : run'.notes.joined i = run.notes.joined i)
    (hsettled : run'.cfg.state.settled i = run.cfg.state.settled i) :
    InProgress run' userId i ↔ InProgress run userId i := by
  constructor
  · rintro ⟨asks, started, unsettled⟩
    exact ⟨(asks_congr hcalled).mp asks, hjoined.symm.trans started, hsettled.symm.trans unsettled⟩
  · rintro ⟨asks, started, unsettled⟩
    exact ⟨(asks_congr hcalled).mpr asks, hjoined.trans started, hsettled.trans unsettled⟩

end Grows

-- ---------------------------------------------------------------------------
-- One step
-- ---------------------------------------------------------------------------

section Steps

variable {cache : UserId → Option B} {run run' : LoadRun B E} {i : ℕ} {userId : UserId} {b : B}
  {th : Thread (LoadCall B) (LoadCmd B E) LoadCmd.Reply E (Option B)} {c : LoadCmd B E}
  {next : Except E c.Reply → Rest B E} {fault : Option E}

/-- A call whose notes have grown is at its next stage. -/
theorem Inv.resumed {out : Except E (c.Reply × State B E)} (h : Inv cache run)
    (hth : run.cfg.thread i = some th) (hcfg : run'.cfg = run.cfg.resume th next out)
    (hsame : ∀ j, j ≠ i → SameAt run run' j) (hgrows : GrowsAt run run' i)
    (hself : Stage run' i th.call (next (reply out)))
    (hpending : ∀ userId f, run'.cfg.state.pendingFetches userId = some f ↔
      InProgress run' userId f)
    (hended : ∀ r, run'.cfg.state.settled i = some r → EndsWith run'.notes i r)
    (hlooked : ∀ userId b, Asks run' i userId → run'.notes.looked i = some (.ok (some b)) →
      Loaded cache run' userId b)
    (hcached : ∀ userId b, run'.cfg.state.cache userId = some b →
      Loaded cache run' userId b) : Inv cache run' := by
  have hcalled : ∀ j, run'.cfg.called j = run.cfg.called j := by
    intro j
    rw [hcfg, Config.called_resume hth]
  have hgrow : Grows run run' := grows_of_beside hcalled hsame hgrows
  refine ⟨fun j th' hth' => ?_, fun j hnone => ?_, hpending, fun f r hr => ?_,
    fun j u b hasks hb => ?_, hcached⟩
  · by_cases hj : j = i
    · subst hj
      rw [hcfg, Config.thread_resume, if_pos (Config.id_of_thread hth)] at hth'
      rw [← Option.some.inj hth']
      exact hself
    · rw [hcfg, Config.thread_resume_ne hth hj] at hth'
      exact (h.stages j th' hth').frame hgrow (hsame j hj)
  · have hj : j ≠ i := by
      rintro rfl
      rw [hcfg, Config.thread_resume, if_pos (Config.id_of_thread hth)] at hnone
      cases hnone
    rw [hcfg, Config.thread_resume_ne hth hj] at hnone
    obtain ⟨hlook, hunstarted⟩ := h.fresh j hnone
    exact ⟨(hsame j hj).looked.trans hlook, hunstarted.congr (hsame j hj)⟩
  · by_cases hf : f = i
    · subst hf
      exact hended r hr
    · rw [(hsame f hf).settled] at hr
      exact (h.ended f r hr).mono (hsame f hf).grows
  · by_cases hj : j = i
    · subst hj
      exact hlooked u b hasks hb
    · rw [(hsame j hj).looked] at hb
      exact (h.looked j u b ((asks_congr (hcalled j)).mp hasks) hb).mono hgrow

/-- A call has a fetch to wait for. -/
theorem Inv.joins {f : ℕ} {out : Except E (c.Reply × State B E)} (h : Inv cache run)
    (hth : run.cfg.thread i = some th) (hunjoined : run.notes.joined i = none)
    (hcfg : run'.cfg = run.cfg.resume th next out)
    (hnotes : run'.notes = { run.notes with
      joined := Function.update run.notes.joined i (some f) })
    (hsettled : run'.cfg.state.settled = run.cfg.state.settled)
    (hcache : run'.cfg.state.cache = run.cfg.state.cache)
    (hothers : ∀ userId g, g ≠ i → (run'.cfg.state.pendingFetches userId = some g ↔
      run.cfg.state.pendingFetches userId = some g))
    (hown : ∀ userId, run'.cfg.state.pendingFetches userId = some i ↔ InProgress run' userId i)
    (hself : Stage run' i th.call (next (reply out))) : Inv cache run' := by
  have hjoined : run'.notes.joined = Function.update run.notes.joined i (some f) := by rw [hnotes]
  have hlooked : run'.notes.looked = run.notes.looked := by rw [hnotes]
  have hloaded : run'.notes.loaded = run.notes.loaded := by rw [hnotes]
  have hwritten : run'.notes.written = run.notes.written := by rw [hnotes]
  have hcalled : ∀ j, run'.cfg.called j = run.cfg.called j := by
    intro j
    rw [hcfg, Config.called_resume hth]
  have hsame : ∀ j, j ≠ i → SameAt run run' j := by
    intro j hj
    refine ⟨congrFun hlooked j, ?_, congrFun hloaded j, congrFun hwritten j, congrFun hsettled j⟩
    rw [hjoined, Function.update_of_ne hj]
  have hgrows : GrowsAt run run' i := by
    refine ⟨fun r hr => hlooked ▸ hr, fun g hg => ?_, fun r hr => hloaded ▸ hr,
      fun r hr => hwritten ▸ hr, fun r hr => hsettled ▸ hr⟩
    rw [hunjoined] at hg
    cases hg
  have hgrow := grows_of_beside hcalled hsame hgrows
  refine h.resumed hth hcfg hsame hgrows hself (fun u g => ?_) (fun r hr => ?_)
    (fun u b hasks hb => ?_) fun u b hb => ?_
  · by_cases hg : g = i
    · rw [hg]
      exact hown u
    · rw [hothers u g hg,
        inProgress_congr (hcalled g) (hsame g hg).joined (hsame g hg).settled]
      exact h.pending u g
  · rw [hsettled] at hr
    exact (h.ended i r hr).mono hgrows
  · rw [hlooked] at hb
    exact (h.looked i u b ((asks_congr (hcalled i)).mp hasks) hb).mono hgrow
  · rw [hcache] at hb
    exact (h.cached u b hb).mono hgrow

theorem inv_begin (cache : UserId → Option B) : Inv cache (begin cache : LoadRun B E) := by
  refine ⟨fun i th hth => ?_, fun i _ => ⟨rfl, rfl, rfl, rfl, rfl⟩, fun u f => ?_,
    fun f r hr => ?_, fun i u b _ hb => ?_, fun u b hb => Or.inl hb⟩
  · cases hth
  · refine iff_of_false (fun hp => ?_) fun hp => ?_
    · cases hp
    · cases hp.started
  · cases hr
  · cases hb

/-- A new call. -/
theorem Inv.called (h : Inv cache run) (hfresh : run.cfg.thread i = none) (k : LoadCall B) :
    Inv cache ⟨run.cfg.spawn i k (loadProg i k), run.notes⟩ := by
  obtain ⟨hunlooked, hunstarted⟩ := h.fresh i hfresh
  have hcalled : ∀ j, j ≠ i →
      (run.cfg.spawn i k (loadProg i k)).called j = run.cfg.called j := by
    intro j hj
    rw [Config.called_spawn, if_neg (Ne.symm hj)]
  have hnone : run.cfg.called i = none := by
    rw [Config.called, hfresh]
    rfl
  have hgrow : Grows run ⟨run.cfg.spawn i k (loadProg i k), run.notes⟩ := by
    refine ⟨fun j k' hk' => ?_, fun j => ⟨fun _ => id, fun _ => id, fun _ => id, fun _ => id,
      fun _ => id⟩⟩
    have hj : j ≠ i := by
      rintro rfl
      rw [hnone] at hk'
      cases hk'
    exact (hcalled j hj).trans hk'
  -- nothing is noted of the new call
  have hlooks : ∀ j r, run.notes.looked j = some r → j ≠ i := by
    rintro j r hr rfl
    rw [hunlooked] at hr
    cases hr
  refine ⟨fun j th hth => ?_, fun j hfree => ?_, fun u f => ?_, h.ended, fun j u b hasks hb => ?_,
    fun u b hb => (h.cached u b hb).mono hgrow⟩
  · rcases Config.thread_spawn_cases hth with ⟨rfl, rfl⟩ | hold
    · cases k with
      | getWalletBalances u b =>
        rw [show loadProg j (.getWalletBalances u b) = _ from loadProg_getWalletBalances j u b]
        exact .looking hunlooked ⟨hunstarted.joined, hunstarted.loaded, hunstarted.written,
          hunstarted.settled⟩
      | invalidateWalletBalanceCache u => exact .deleting
      | expire u => exact .expiring
    · exact (h.stages j th hold).frame hgrow ⟨rfl, rfl, rfl, rfl, rfl⟩
  · change (run.cfg.spawn i k (loadProg i k)).thread j = none at hfree
    rw [Config.thread_spawn] at hfree
    split at hfree
    · cases hfree
    · obtain ⟨hlook, hun⟩ := h.fresh j hfree
      exact ⟨hlook, hun.joined, hun.loaded, hun.written, hun.settled⟩
  · by_cases hf : f = i
    · subst hf
      refine iff_of_false (fun hp => ?_) fun hp => ?_
      · have hstarted := ((h.pending u f).mp hp).started
        rw [hunstarted.joined] at hstarted
        cases hstarted
      · cases hunstarted.joined.symm.trans hp.started
    · have hsame : InProgress ⟨run.cfg.spawn i k (loadProg i k), run.notes⟩ u f ↔
          InProgress run u f := inProgress_congr (hcalled f hf) rfl rfl
      exact (h.pending u f).trans hsame.symm
  · exact (h.looked j u b ((asks_congr (hcalled j (hlooks j _ hb))).mp hasks) hb).mono hgrow

variable [Inhabited E]

/-- The run after call `i` has been answered. -/
def answer (run : LoadRun B E) (i : ℕ) (fault : Option E)
    (th : Thread (LoadCall B) (LoadCmd B E) LoadCmd.Reply E (Option B)) {c : LoadCmd B E}
    (next : Except E c.Reply → Rest B E) : LoadRun B E :=
  ⟨run.cfg.resume th next (outcome fault (exec c run.cfg.state)),
    run.notes.note i c (reply (outcome fault (exec c run.cfg.state)))⟩

theorem answer_cfg (run : LoadRun B E) (i : ℕ) (fault : Option E)
    (th : Thread (LoadCall B) (LoadCmd B E) LoadCmd.Reply E (Option B)) {c : LoadCmd B E}
    (next : Except E c.Reply → Rest B E) : (answer run i fault th next).cfg =
      run.cfg.resume th next (outcome fault (exec c run.cfg.state)) := rfl

/-- A step that starts no fetch and ends none. -/
theorem Inv.quiet (h : Inv cache run) (hth : run.cfg.thread i = some th)
    (hpend : (answer run i fault th next).cfg.state.pendingFetches = run.cfg.state.pendingFetches)
    (hsettled : (answer run i fault th next).cfg.state.settled = run.cfg.state.settled)
    (hjoined : (answer run i fault th next).notes.joined = run.notes.joined)
    (hsame : ∀ j, j ≠ i → SameAt run (answer run i fault th next) j)
    (hgrows : GrowsAt run (answer run i fault th next) i)
    (hself : Stage (answer run i fault th next) i th.call
      (next (reply (outcome fault (exec c run.cfg.state)))))
    (hlooked : ∀ userId b, Asks run i userId →
      (answer run i fault th next).notes.looked i = some (.ok (some b)) → Loaded cache run userId b)
    (hcached : ∀ userId b, (answer run i fault th next).cfg.state.cache userId = some b →
      Loaded cache run userId b ∨ Loaded cache (answer run i fault th next) userId b) :
    Inv cache (answer run i fault th next) := by
  have hcalled : ∀ j, (answer run i fault th next).cfg.called j = run.cfg.called j :=
    Config.called_resume hth next _
  have hgrow := grows_of_beside hcalled hsame hgrows
  refine h.resumed hth rfl hsame hgrows hself (fun u f => ?_) (fun r hr => ?_)
    (fun u b hasks hb => ?_) fun u b hb => ?_
  · rw [hpend, inProgress_congr (hcalled f) (congrFun hjoined f) (congrFun hsettled f)]
    exact h.pending u f
  · rw [hsettled] at hr
    exact (h.ended i r hr).mono hgrows
  · exact (hlooked u b ((asks_congr (hcalled i)).mp hasks) hb).mono hgrow
  · exact (hcached u b hb).elim (fun hold => hold.mono hgrow) id

/-- The lookup is answered. -/
theorem Inv.looked_up (h : Inv cache run) (hth : run.cfg.thread i = some th)
    (hcall : th.call = .getWalletBalances userId b) (hunlooked : run.notes.looked i = none)
    (hunstarted : Unstarted run i) :
    Inv cache (answer run i fault th (c := .cacheGet userId) fun r => (Proc.done r).bind fun
      | some cached => .done (.ok (some cached))
      | none => consulting i userId b) := by
  have hbeside : ∀ (j : ℕ) (r : Except E (Option B)), j ≠ i →
      Function.update run.notes.looked i (some r) j = run.notes.looked j :=
    fun j r hj => Function.update_of_ne hj _ _
  have hself : ∀ r : Except E (Option B),
      Function.update run.notes.looked i (some r) i = some r := fun r => Function.update_self ..
  have hopen : ∀ (r r' : Except E (Option B)), run.notes.looked i = some r →
      Function.update run.notes.looked i (some r') i = some r := by
    intro r r' hr
    rw [hunlooked] at hr
    cases hr
  cases fault with
  | some e =>
    refine h.quiet hth rfl rfl rfl (fun j hj => ⟨hbeside j _ hj, rfl, rfl, rfl, rfl⟩)
      ⟨fun r => hopen r _, fun _ => id, fun _ => id, fun _ => id, fun _ => id⟩ ?_ (fun u b _ hb => ?_)
      fun u b hb => Or.inl (h.cached u b hb)
    · rw [hcall]
      exact .answered (.lookupRejects e (hself _))
    · cases (hself _).symm.trans hb
  | none =>
    refine h.quiet hth rfl rfl rfl (fun j hj => ⟨hbeside j _ hj, rfl, rfl, rfl, rfl⟩)
      ⟨fun r => hopen r _, fun _ => id, fun _ => id, fun _ => id, fun _ => id⟩ ?_
      (fun u b' hasks hb => ?_) fun u b hb => Or.inl (h.cached u b hb)
    · rw [hcall]
      cases hcached : run.cfg.state.cache userId with
      | some cached =>
        have hstage : Stage (answer run i none th (c := .cacheGet userId) fun r =>
            (Proc.done r).bind fun
              | some cached => .done (.ok (some cached))
              | none => consulting i userId b) i (.getWalletBalances userId b)
            (.done (.ok (some cached))) := by
          refine .answered (.cached cached ((hself _).trans ?_))
          rw [← hcached]
          rfl
        have hnext : reply (outcome none (exec (E := E) (.cacheGet userId) run.cfg.state)) =
            .ok (some cached) := by
          rw [← hcached]
          rfl
        rw [hnext]
        exact hstage
      | none =>
        have hnext : reply (outcome none (exec (E := E) (.cacheGet userId) run.cfg.state)) =
            .ok none := by
          rw [← hcached]
          rfl
        rw [hnext]
        exact .consulting ⟨hunstarted.joined, hunstarted.loaded, hunstarted.written,
          hunstarted.settled⟩
    · have hfound : run.cfg.state.cache userId = some b' :=
        Except.ok.inj (Option.some.inj ((hself _).symm.trans hb))
      obtain ⟨b'', hb''⟩ := hasks
      rw [Config.called_of_thread hth, hcall] at hb''
      cases hb''
      exact h.cached userId b' hfound

def consulted (i : ℕ) (userId : UserId) (b : B) (r : Except E (ℕ × Bool)) : Rest B E :=
  (Proc.done r).bind fun (f, isNew) =>
    if isNew = true then loading i f userId b else waiting f

theorem answer_startFetch {f : ℕ} {isNew : Bool} {st' : State B E}
    (h : run.cfg.state.startFetch i userId = ((f, isNew), st')) :
    answer run i none th (c := .startFetch i userId) (consulted i userId b) =
      ⟨run.cfg.resume th (c := .startFetch i userId) (consulted i userId b)
          (.ok ((f, isNew), st')),
        { run.notes with joined := Function.update run.notes.joined i (some f) }⟩ := by
  unfold answer
  rw [exec, h]
  rfl

/-- `pendingFetches` is consulted. -/
theorem Inv.consults (h : Inv cache run) (hth : run.cfg.thread i = some th)
    (hcall : th.call = .getWalletBalances userId b) (hunstarted : Unstarted run i) :
    Inv cache (answer run i none th (c := .startFetch i userId) (consulted i userId b)) := by
  have hasks : Asks run i userId := by
    refine ⟨b, ?_⟩
    rw [Config.called_of_thread hth, hcall]
  have hcalled : ∀ out j, (run.cfg.resume th (c := .startFetch i userId)
      (consulted i userId b) out).called j = run.cfg.called j :=
    fun out j => Config.called_resume hth _ out j
  have hself : ∀ f, Function.update run.notes.joined i (some f) i = some f :=
    fun f => Function.update_self ..
  have hidle : ∀ u, run.cfg.state.pendingFetches u ≠ some i := by
    intro u hp
    have hstarted := ((h.pending u i).mp hp).started
    rw [hunstarted.joined] at hstarted
    cases hstarted
  cases hpending : run.cfg.state.pendingFetches userId with
  | some f =>
    have hst : run.cfg.state.startFetch i userId = ((f, false), run.cfg.state) := by
      rw [State.startFetch, hpending]
    obtain ⟨hfasks, hfstarted, -⟩ := (h.pending userId f).mp hpending
    have hne : f ≠ i := by
      rintro rfl
      rw [hunstarted.joined] at hfstarted
      cases hfstarted
    rw [answer_startFetch hst]
    refine h.joins hth hunstarted.joined rfl rfl rfl rfl (fun u g _ => Iff.rfl)
      (fun u => iff_of_false (hidle u) fun hp => hne ?_) ?_
    · exact Option.some.inj ((hself f).symm.trans hp.started)
    · rw [hcall]
      exact .waiting (hself f) ((asks_congr (hcalled _ f)).mpr hfasks)
  | none =>
    have hst : run.cfg.state.startFetch i userId = ((i, true),
        { run.cfg.state with
          pendingFetches := Function.update run.cfg.state.pendingFetches userId (some i) }) := by
      rw [State.startFetch, hpending]
    rw [answer_startFetch hst]
    refine h.joins hth hunstarted.joined rfl rfl rfl rfl (fun u g hg => ?_) (fun u => ?_) ?_
    · change Function.update run.cfg.state.pendingFetches userId (some i) u = some g ↔ _
      by_cases hu : u = userId
      · subst hu
        rw [Function.update_self, hpending]
        exact iff_of_false (fun heq => hg (Option.some.inj heq).symm) (by simp)
      · rw [Function.update_of_ne hu]
    · change Function.update run.cfg.state.pendingFetches userId (some i) u = some i ↔ _
      by_cases hu : u = userId
      · subst hu
        rw [Function.update_self]
        exact iff_of_true rfl
          ⟨(asks_congr (hcalled _ i)).mpr hasks, hself i, hunstarted.settled⟩
      · rw [Function.update_of_ne hu]
        exact iff_of_false (hidle u) fun hp =>
          hu (((asks_congr (hcalled _ i)).mp hp.asks).unique hasks)
    · rw [hcall]
      exact .loading (hself i) hunstarted.settled hunstarted.loaded hunstarted.written

/-- The loader is answered. -/
theorem Inv.loader_answers {b' : B} (h : Inv cache run) (hth : run.cfg.thread i = some th)
    (hcall : th.call = .getWalletBalances userId b) (hstarted : run.notes.joined i = some i)
    (hunsettled : run.cfg.state.settled i = none) (hunloaded : run.notes.loaded i = none)
    (hunwritten : run.notes.written i = none) :
    Inv cache (answer run i fault th (c := .loader userId b') fun r =>
      match r with
      | .ok b => writing i i userId b
      | .error e => finishing i i userId (.error e)) := by
  have hbeside : ∀ (j : ℕ) (r : Except E B), j ≠ i →
      Function.update run.notes.loaded i (some r) j = run.notes.loaded j :=
    fun j r hj => Function.update_of_ne hj _ _
  have hself : ∀ r : Except E B, Function.update run.notes.loaded i (some r) i = some r :=
    fun r => Function.update_self ..
  have hopen : ∀ (r r' : Except E B), run.notes.loaded i = some r →
      Function.update run.notes.loaded i (some r') i = some r := by
    intro r r' hr
    rw [hunloaded] at hr
    cases hr
  cases fault with
  | some e =>
    refine h.quiet hth rfl rfl rfl (fun j hj => ⟨rfl, rfl, hbeside j _ hj, rfl, rfl⟩)
      ⟨fun _ => id, fun _ => id, fun r => hopen r _, fun _ => id, fun _ => id⟩ ?_
      (fun u b hasks hb => h.looked i u b hasks hb) fun u b hb => Or.inl (h.cached u b hb)
    rw [hcall]
    exact .finishing hstarted hunsettled (.loaderRejects e (hself _))
  | none =>
    refine h.quiet hth rfl rfl rfl (fun j hj => ⟨rfl, rfl, hbeside j _ hj, rfl, rfl⟩)
      ⟨fun _ => id, fun _ => id, fun r => hopen r _, fun _ => id, fun _ => id⟩ ?_
      (fun u b hasks hb => h.looked i u b hasks hb) fun u b hb => Or.inl (h.cached u b hb)
    rw [hcall]
    exact .writing hstarted hunsettled (hself _) hunwritten

/-- The write is answered: what goes into the cache was loaded. -/
theorem Inv.written {b' : B} (h : Inv cache run) (hth : run.cfg.thread i = some th)
    (hcall : th.call = .getWalletBalances userId b) (hstarted : run.notes.joined i = some i)
    (hunsettled : run.cfg.state.settled i = none) (hloaded : run.notes.loaded i = some (.ok b'))
    (hunwritten : run.notes.written i = none) :
    Inv cache (answer run i fault th (c := .cacheSet userId b') fun r =>
      finishing i i userId (r.map fun _ => b')) := by
  have hbeside : ∀ (j : ℕ) (r : Except E Unit), j ≠ i →
      Function.update run.notes.written i (some r) j = run.notes.written j :=
    fun j r hj => Function.update_of_ne hj _ _
  have hself : ∀ r : Except E Unit, Function.update run.notes.written i (some r) i = some r :=
    fun r => Function.update_self ..
  have hopen : ∀ (r r' : Except E Unit), run.notes.written i = some r →
      Function.update run.notes.written i (some r') i = some r := by
    intro r r' hr
    rw [hunwritten] at hr
    cases hr
  cases fault with
  | some e =>
    refine h.quiet hth rfl rfl rfl (fun j hj => ⟨rfl, rfl, rfl, hbeside j _ hj, rfl⟩)
      ⟨fun _ => id, fun _ => id, fun _ => id, fun r => hopen r _, fun _ => id⟩ ?_
      (fun u b hasks hb => h.looked i u b hasks hb) fun u b hb => Or.inl (h.cached u b hb)
    rw [hcall]
    exact .finishing hstarted hunsettled (.writeRejects b' e hloaded (hself _))
  | none =>
    refine h.quiet hth rfl rfl rfl (fun j hj => ⟨rfl, rfl, rfl, hbeside j _ hj, rfl⟩)
      ⟨fun _ => id, fun _ => id, fun _ => id, fun r => hopen r _, fun _ => id⟩ ?_
      (fun u b hasks hb => h.looked i u b hasks hb) fun u b'' hb => ?_
    · rw [hcall]
      exact .finishing hstarted hunsettled (.written b' hloaded (hself _))
    · change Function.update run.cfg.state.cache userId (some b') u = some b'' at hb
      by_cases hu : u = userId
      · subst hu
        rw [Function.update_self] at hb
        obtain rfl := Option.some.inj hb
        refine Or.inl (Or.inr ⟨i, ⟨b, ?_⟩, hloaded⟩)
        rw [Config.called_of_thread hth, hcall]
      · rw [Function.update_of_ne hu] at hb
        exact Or.inl (h.cached u b'' hb)

/-- A fetch has come to its `finally`. -/
theorem Inv.finished {r : Except E B} (h : Inv cache run) (hth : run.cfg.thread i = some th)
    (hcall : th.call = .getWalletBalances userId b) (hstarted : run.notes.joined i = some i)
    (hunsettled : run.cfg.state.settled i = none) (hends : EndsWith run.notes i r) :
    Inv cache (answer run i none th (c := .finish i userId r) fun r =>
      (Proc.done r).bind fun _ => waiting i) := by
  have hasks : Asks run i userId := by
    refine ⟨b, ?_⟩
    rw [Config.called_of_thread hth, hcall]
  have hself : Function.update run.cfg.state.settled i (some r) i = some r :=
    Function.update_self ..
  have hcalled : ∀ j, (answer run i none th (c := .finish i userId r) fun r =>
      (Proc.done r).bind fun _ => waiting i).cfg.called j = run.cfg.called j :=
    Config.called_resume hth _ _
  have hsame : ∀ j, j ≠ i → SameAt run (answer run i none th (c := .finish i userId r) fun r =>
      (Proc.done r).bind fun _ => waiting i) j :=
    fun j hj => ⟨rfl, rfl, rfl, rfl, Function.update_of_ne hj _ _⟩
  have hgrows : GrowsAt run (answer run i none th (c := .finish i userId r) fun r =>
      (Proc.done r).bind fun _ => waiting i) i := by
    refine ⟨fun _ => id, fun _ => id, fun _ => id, fun _ => id, fun r' hr' => ?_⟩
    rw [hunsettled] at hr'
    cases hr'
  have hgrow := grows_of_beside hcalled hsame hgrows
  refine h.resumed hth (answer_cfg ..) hsame hgrows ?_ (fun u g => ?_) (fun r' hr' => ?_)
    (fun u b hu hb => (h.looked i u b ((asks_congr (hcalled i)).mp hu) hb).mono hgrow)
    fun u b hb => (h.cached u b hb).mono hgrow
  · rw [hcall]
    exact .waiting hstarted ((asks_congr (hcalled i)).mpr hasks)
  · change Function.update run.cfg.state.pendingFetches userId none u = some g ↔ _
    have hpending := (h.pending userId i).mpr ⟨hasks, hstarted, hunsettled⟩
    by_cases hu : u = userId
    · -- the only fetch of the user has ended
      subst hu
      rw [Function.update_self]
      refine iff_of_false (by simp) fun hp => ?_
      by_cases hg : g = i
      · subst hg
        cases hself.symm.trans hp.unsettled
      · have hin := (inProgress_congr (hcalled g) (hsame g hg).joined (hsame g hg).settled).mp hp
        rw [(h.pending u g).mpr hin] at hpending
        exact hg (Option.some.inj hpending)
    · rw [Function.update_of_ne hu, h.pending u g]
      by_cases hg : g = i
      · subst hg
        refine iff_of_false (fun hp => hu (hp.asks.unique hasks)) fun hp => ?_
        cases hself.symm.trans hp.unsettled
      · exact (inProgress_congr (hcalled g) (hsame g hg).joined (hsame g hg).settled).symm
  · obtain rfl := Option.some.inj (hself.symm.trans hr')
    exact hends.mono hgrows

/-- A promise that is settled is waited for. -/
theorem Inv.fetched {f : ℕ} (h : Inv cache run) (hth : run.cfg.thread i = some th)
    (hcall : th.call = .getWalletBalances userId b) (hjoined : run.notes.joined i = some f)
    (hasks : Asks run f userId) (hready : ready (.fetched f) run.cfg.state = true) :
    Inv cache (answer run i none th (c := .fetched f) fun r =>
      (Proc.done r).bind fun b => .done (.ok (some b))) := by
  obtain ⟨r, hr⟩ := Option.isSome_iff_exists.mp hready
  have hexec : answer run i none th (c := .fetched f) (fun r =>
      (Proc.done r).bind fun b => .done (.ok (some b))) =
      ⟨run.cfg.resume th (c := .fetched f) (fun r =>
        (Proc.done r).bind fun b => .done (.ok (some b)))
          (r.map fun b => (b, run.cfg.state)), run.notes⟩ := by
    unfold answer
    rw [exec, hr]
    cases r <;> rfl
  have hstate : (answer run i none th (c := .fetched f) fun r =>
      (Proc.done r).bind fun b => .done (.ok (some b))).cfg.state = run.cfg.state := by
    rw [hexec]
    cases r <;> rfl
  refine h.quiet hth (congrArg State.pendingFetches hstate) (congrArg State.settled hstate) rfl
    (fun j _ => ⟨rfl, rfl, rfl, rfl, congrArg (State.settled · j) hstate⟩)
    ⟨fun _ => id, fun _ => id, fun _ => id, fun _ => id, fun r hr => ?_⟩ ?_
    (fun u b hu hb => h.looked i u b hu hb) fun u b hb => Or.inl (h.cached u b ?_)
  · rw [hstate]
    exact hr
  · rw [hcall]
    have hanswered : Answered (answer run i none th (c := .fetched f) fun r =>
        (Proc.done r).bind fun b => .done (.ok (some b))) i userId (r.map some) := by
      refine .fetched f r hjoined
        ((asks_congr (Config.called_resume hth _ _ f)).mpr hasks) ?_
      rw [hstate]
      exact hr
    have hnext : reply (outcome none (exec (.fetched f) run.cfg.state)) = r := by
      rw [exec, hr]
      cases r <;> rfl
    rw [hnext]
    cases r with
    | error e => exact .answered hanswered
    | ok b => exact .answered hanswered
  · rw [hstate] at hb
    exact hb

/-- The entry of a user is removed, or its removal fails. -/
theorem Inv.removed (userId : UserId) (h : Inv cache run) (hth : run.cfg.thread i = some th)
    (hnotes : (answer run i fault th next).notes = run.notes)
    (hstate : (answer run i fault th next).cfg.state = run.cfg.state ∨
      (answer run i fault th next).cfg.state = run.cfg.state.del userId)
    (hself : Stage (answer run i fault th next) i th.call
      (next (reply (outcome fault (exec c run.cfg.state))))) :
    Inv cache (answer run i fault th next) := by
  have hpend : (answer run i fault th next).cfg.state.pendingFetches =
      run.cfg.state.pendingFetches :=
    hstate.elim (congrArg State.pendingFetches) (congrArg State.pendingFetches)
  have hsettled : (answer run i fault th next).cfg.state.settled = run.cfg.state.settled :=
    hstate.elim (congrArg State.settled) (congrArg State.settled)
  have hsame : ∀ j, SameAt run (answer run i fault th next) j := by
    intro j
    refine ⟨?_, ?_, ?_, ?_, congrFun hsettled j⟩ <;> rw [hnotes]
  refine h.quiet hth hpend hsettled (congrArg Notes.joined hnotes) (fun j _ => hsame j)
    (hsame i).grows hself (fun u b hu hb => ?_) fun u b hb => Or.inl (h.cached u b ?_)
  · rw [hnotes] at hb
    exact h.looked i u b hu hb
  · rcases hstate with hstate | hstate <;> rw [hstate] at hb
    · exact hb
    · change Function.update run.cfg.state.cache userId none u = some b at hb
      by_cases hu : u = userId
      · subst hu
        rw [Function.update_self] at hb
        cases hb
      · rw [Function.update_of_ne hu] at hb
        exact hb

/-- An answer to a call. -/
theorem Inv.answer (h : Inv cache run) (hth : run.cfg.thread i = some th)
    (hproc : th.proc = .await c next) (hready : ready c run.cfg.state = true)
    (hfault : fault = none ∨ mayFail c = true) : Inv cache (answer run i fault th next) := by
  have hstage := h.stages i th hth
  rw [hproc] at hstage
  generalize hcall : th.call = k at hstage
  generalize hp : Proc.await c next = p at hstage
  cases hstage with
  | looking unlooked unstarted =>
    obtain ⟨rfl, hnext⟩ := Proc.await.inj hp
    cases hnext
    exact h.looked_up hth hcall unlooked unstarted
  | consulting unstarted =>
    obtain ⟨rfl, hnext⟩ := Proc.await.inj hp
    cases hnext
    obtain rfl := hfault.resolve_right Bool.false_ne_true
    exact h.consults hth hcall unstarted
  | loading started unsettled unloaded unwritten =>
    obtain ⟨rfl, hnext⟩ := Proc.await.inj hp
    cases hnext
    exact h.loader_answers hth hcall started unsettled unloaded unwritten
  | writing started unsettled loaded unwritten =>
    obtain ⟨rfl, hnext⟩ := Proc.await.inj hp
    cases hnext
    exact h.written hth hcall started unsettled loaded unwritten
  | finishing started unsettled ends =>
    obtain ⟨rfl, hnext⟩ := Proc.await.inj hp
    cases hnext
    obtain rfl := hfault.resolve_right Bool.false_ne_true
    exact h.finished hth hcall started unsettled ends
  | waiting joined asks =>
    obtain ⟨rfl, hnext⟩ := Proc.await.inj hp
    cases hnext
    obtain rfl := hfault.resolve_right Bool.false_ne_true
    exact h.fetched hth hcall joined asks hready
  | @deleting userId =>
    obtain ⟨rfl, hnext⟩ := Proc.await.inj hp
    cases hnext
    cases fault with
    | some e => exact h.removed userId hth rfl (Or.inl rfl) (hcall ▸ .deleted _)
    | none => exact h.removed userId hth rfl (Or.inr rfl) (hcall ▸ .deleted _)
  | @expiring userId =>
    obtain ⟨rfl, hnext⟩ := Proc.await.inj hp
    cases hnext
    obtain rfl := hfault.resolve_right Bool.false_ne_true
    exact h.removed userId hth rfl (Or.inr rfl) (hcall ▸ .expired _)
  | answered _ | deleted _ | expired _ => cases hp

/-- **Step lemma.** -/
theorem Inv.step {e : Event (LoadCall B) E} (h : Inv cache run) (hstep : run.step e = some run') :
    Inv cache run' := by
  rcases System.annotate_cases hstep with ⟨i, k, rfl, hfresh, rfl⟩ |
    ⟨i, fault, th, c, next, rfl, hth, hproc, hready, hfault, rfl⟩
  · exact h.called hfresh k
  · exact h.answer hth hproc hready hfault

/-- **Run lemma.** -/
theorem inv_of_follow {es : List (Event (LoadCall B) E)}
    (hrun : (begin cache).follow es = some run) : Inv cache run :=
  System.follow_invariant (fun _ _ _ h hstep => h.step hstep) (inv_begin cache) hrun

end Steps

-- ---------------------------------------------------------------------------
-- Other users
-- ---------------------------------------------------------------------------

/-- A command of call `i` for the user. -/
def Local (run : LoadRun B E) (userId : UserId) (i : ℕ) : LoadCmd B E → Prop
  | .cacheGet u | .loader u _ | .cacheSet u _ | .cacheDel u | .expire u => u = userId
  | .startFetch j u | .finish j u _ => j = i ∧ u = userId
  | .fetched f => Asks run f userId

section Others

variable {cache : UserId → Option B} {run run' alone : LoadRun B E} {i j : ℕ} {userId : UserId}
  {th : Thread (LoadCall B) (LoadCmd B E) LoadCmd.Reply E (Option B)} {c : LoadCmd B E}
  {next : Except E c.Reply → Rest B E} {fault : Option E}

theorem Stage.isLocal {k : LoadCall B} (h : Stage run i k (.await c next)) :
    Local run k.userId i c := by
  generalize hp : Proc.await c next = p at h
  cases h with
  | looking _ _ | writing _ _ _ _ | loading _ _ _ _ | deleting | expiring =>
    obtain ⟨rfl, -⟩ := Proc.await.inj hp
    exact rfl
  | consulting _ | finishing _ _ _ =>
    obtain ⟨rfl, -⟩ := Proc.await.inj hp
    exact ⟨rfl, rfl⟩
  | waiting _ asks =>
    obtain ⟨rfl, -⟩ := Proc.await.inj hp
    exact asks
  | answered _ | deleted _ | expired _ => cases hp

/-- An answer adds nothing to the notes of the other calls. -/
theorem note_beside (notes : Notes B E) (hj : j ≠ i) (r : Except E c.Reply) :
    (notes.note i c r).looked j = notes.looked j ∧ (notes.note i c r).joined j = notes.joined j ∧
      (notes.note i c r).loaded j = notes.loaded j ∧
      (notes.note i c r).written j = notes.written j := by
  cases c with
  | cacheGet u => exact ⟨Function.update_of_ne hj _ _, rfl, rfl, rfl⟩
  | startFetch j' u =>
    cases r with
    | ok a => exact ⟨rfl, Function.update_of_ne hj _ _, rfl, rfl⟩
    | error e => exact ⟨rfl, rfl, rfl, rfl⟩
  | loader u b => exact ⟨rfl, rfl, Function.update_of_ne hj _ _, rfl⟩
  | cacheSet u b => exact ⟨rfl, rfl, rfl, Function.update_of_ne hj _ _⟩
  | _ => exact ⟨rfl, rfl, rfl, rfl⟩

/-- The same answer adds the same to the same notes. -/
theorem note_same {notes notes' : Notes B E} (r : Except E c.Reply)
    (h : notes'.looked i = notes.looked i ∧ notes'.joined i = notes.joined i ∧
      notes'.loaded i = notes.loaded i ∧ notes'.written i = notes.written i) :
    (notes'.note i c r).looked i = (notes.note i c r).looked i ∧
      (notes'.note i c r).joined i = (notes.note i c r).joined i ∧
      (notes'.note i c r).loaded i = (notes.note i c r).loaded i ∧
      (notes'.note i c r).written i = (notes.note i c r).written i := by
  obtain ⟨hlooked, hjoined, hloaded, hwritten⟩ := h
  have hself : ∀ {α : Type} (m m' : ℕ → Option α) (x : Option α),
      Function.update m' i x i = Function.update m i x i := by
    intro α m m' x
    rw [Function.update_self, Function.update_self]
  cases c with
  | cacheGet u => exact ⟨hself _ _ _, hjoined, hloaded, hwritten⟩
  | startFetch j' u =>
    cases r with
    | ok a => exact ⟨hlooked, hself _ _ _, hloaded, hwritten⟩
    | error e => exact ⟨hlooked, hjoined, hloaded, hwritten⟩
  | loader u b => exact ⟨hlooked, hjoined, hself _ _ _, hwritten⟩
  | cacheSet u b => exact ⟨hlooked, hjoined, hloaded, hself _ _ _⟩
  | _ => exact ⟨hlooked, hjoined, hloaded, hwritten⟩

/-- A new call of the user. -/
theorem SameFor.calls_too (h : SameFor userId run alone) (hinv : Inv cache run)
    (hinv' : Inv cache alone) (hfresh : run.cfg.thread i = none) {k : LoadCall B}
    (huser : k.userId = userId) :
    alone.cfg.thread i = none ∧
      SameFor userId ⟨run.cfg.spawn i k (loadProg i k), run.notes⟩
        ⟨alone.cfg.spawn i k (loadProg i k), alone.notes⟩ := by
  have hnone : alone.cfg.thread i = none := by
    rw [h.threads i, hfresh]
    rfl
  refine ⟨hnone, h.cache, h.pending, fun j => ?_, fun j hj => ?_⟩
  · change (alone.cfg.spawn i k (loadProg i k)).thread j =
      ((run.cfg.spawn i k (loadProg i k)).thread j).filter _
    rw [Config.thread_spawn, Config.thread_spawn]
    split
    · rw [Option.filter_some_pos (by simpa using huser)]
    · exact h.threads j
  · change ((run.cfg.spawn i k (loadProg i k)).called j).map _ = _ at hj
    rw [Config.called_spawn] at hj
    split at hj
    · rename_i heq
      subst heq
      obtain ⟨hlooked, hun⟩ := hinv.fresh i hfresh
      obtain ⟨hlooked', hun'⟩ := hinv'.fresh i hnone
      exact ⟨hlooked'.trans hlooked.symm, hun'.joined.trans hun.joined.symm,
        hun'.loaded.trans hun.loaded.symm, hun'.written.trans hun.written.symm,
        hun'.settled.trans hun.settled.symm⟩
    · obtain ⟨hlooked, hjoined, hloaded, hwritten, hsettled⟩ := h.calls j hj
      exact ⟨hlooked, hjoined, hloaded, hwritten, hsettled⟩

/-- A new call of another user. -/
theorem SameFor.calls_aside (h : SameFor userId run alone) (hfresh : run.cfg.thread i = none)
    {k : LoadCall B} (huser : k.userId ≠ userId) :
    SameFor userId ⟨run.cfg.spawn i k (loadProg i k), run.notes⟩ alone := by
  refine ⟨h.cache, h.pending, fun j => ?_, fun j hj => ?_⟩
  · change _ = ((run.cfg.spawn i k (loadProg i k)).thread j).filter _
    rw [Config.thread_spawn]
    split
    · rename_i heq
      subst heq
      rw [h.threads i, hfresh, Option.filter_some_neg (by simpa using huser)]
      rfl
    · exact h.threads j
  · change ((run.cfg.spawn i k (loadProg i k)).called j).map _ = _ at hj
    rw [Config.called_spawn] at hj
    split at hj
    · exact absurd (Option.some.inj hj) huser
    · obtain ⟨hlooked, hjoined, hloaded, hwritten, hsettled⟩ := h.calls j hj
      exact ⟨hlooked, hjoined, hloaded, hwritten, hsettled⟩

/-- A call of the user that can go on can go on alone. -/
theorem SameFor.goes_on (h : SameFor userId run alone) (hth : run.cfg.thread i = some th)
    (huser : th.call.userId = userId) (hlocal : Local run userId i c)
    (hready : ready c run.cfg.state = true) :
    alone.cfg.thread i = some th ∧ ready c alone.cfg.state = true := by
  refine ⟨?_, ?_⟩
  · rw [h.threads i, hth, Option.filter_some_pos (by simpa using huser)]
  · cases c with
    | fetched f =>
      obtain ⟨b, hf⟩ : Asks run f userId := hlocal
      have hsame := (h.calls f (by rw [hf]; rfl)).settled
      exact (congrArg Option.isSome hsame).trans hready
    | _ => rfl

variable [Inhabited E]

/-- A command for another user. -/
theorem after_aside {userId' : UserId} (st : State B E) (hlocal : Local run userId' i c)
    (hne : userId' ≠ userId) (fault : Option E) :
    (after (outcome fault (exec c st)) st).cache userId = st.cache userId ∧
      (after (outcome fault (exec c st)) st).pendingFetches userId = st.pendingFetches userId ∧
      ∀ j, j ≠ i → (after (outcome fault (exec c st)) st).settled j = st.settled j := by
  cases fault with
  | some e => exact ⟨rfl, rfl, fun _ _ => rfl⟩
  | none =>
    have hother : userId ≠ userId' := Ne.symm hne
    cases c with
    | cacheGet u | loader u b => exact ⟨rfl, rfl, fun _ _ => rfl⟩
    | cacheSet u b | cacheDel u | expire u =>
      obtain rfl : u = userId' := hlocal
      exact ⟨Function.update_of_ne hother _ _, rfl, fun _ _ => rfl⟩
    | finish j' u r =>
      obtain ⟨rfl, rfl⟩ := hlocal
      exact ⟨rfl, Function.update_of_ne hother _ _, fun j hj => Function.update_of_ne hj _ _⟩
    | fetched f =>
      have hsame : after (outcome none (exec (.fetched f) st)) st = st := by
        rw [exec]
        split <;> rfl
      rw [hsame]
      exact ⟨rfl, rfl, fun _ _ => rfl⟩
    | startFetch j' u =>
      obtain ⟨rfl, rfl⟩ := hlocal
      have hst : after (outcome none (exec (.startFetch j' u) st)) st =
          (st.startFetch j' u).2 := rfl
      rw [hst, State.startFetch]
      split
      · exact ⟨rfl, rfl, fun _ _ => rfl⟩
      · exact ⟨rfl, Function.update_of_ne hother _ _, fun _ _ => rfl⟩

/-- A command for the user, where nothing of the user's differs. -/
theorem after_same {st st' : State B E} (hlocal : Local run userId i c)
    (hcache : st'.cache userId = st.cache userId)
    (hpending : st'.pendingFetches userId = st.pendingFetches userId)
    (hsettled : ∀ j, (run.cfg.called j).map LoadCall.userId = some userId →
      st'.settled j = st.settled j) (fault : Option E) :
    reply (outcome fault (exec c st')) = reply (outcome fault (exec c st)) ∧
      (after (outcome fault (exec c st')) st').cache userId =
        (after (outcome fault (exec c st)) st).cache userId ∧
      (after (outcome fault (exec c st')) st').pendingFetches userId =
        (after (outcome fault (exec c st)) st).pendingFetches userId ∧
      ∀ j, (run.cfg.called j).map LoadCall.userId = some userId →
        (after (outcome fault (exec c st')) st').settled j =
          (after (outcome fault (exec c st)) st).settled j := by
  cases fault with
  | some e => exact ⟨rfl, hcache, hpending, hsettled⟩
  | none =>
    have hself : ∀ {α : Type} (m m' : UserId → Option α) (x : Option α),
        Function.update m' userId x userId = Function.update m userId x userId := by
      intro α m m' x
      rw [Function.update_self, Function.update_self]
    cases c with
    | cacheGet u =>
      obtain rfl : u = userId := hlocal
      exact ⟨congrArg Except.ok hcache, hcache, hpending, hsettled⟩
    | loader u b => exact ⟨rfl, hcache, hpending, hsettled⟩
    | cacheSet u b | cacheDel u | expire u =>
      obtain rfl : u = userId := hlocal
      exact ⟨rfl, hself _ _ _, hpending, hsettled⟩
    | finish f u r =>
      obtain ⟨-, rfl⟩ := hlocal
      refine ⟨rfl, hcache, hself _ _ _, fun j hj => ?_⟩
      change Function.update st'.settled f (some r) j = Function.update st.settled f (some r) j
      rw [Function.update_apply, Function.update_apply, hsettled j hj]
    | fetched f =>
      obtain ⟨b, hf⟩ : Asks run f userId := hlocal
      have hsame := hsettled f (by rw [hf]; rfl)
      have hafter : ∀ st : State B E, after (outcome none (exec (.fetched f) st)) st = st := by
        intro st
        rw [exec]
        split <;> rfl
      rw [hafter, hafter]
      refine ⟨?_, hcache, hpending, hsettled⟩
      rw [exec, exec, hsame]
      cases st.settled f with
      | none => rfl
      | some r => cases r <;> rfl
    | startFetch f u =>
      obtain ⟨-, rfl⟩ := hlocal
      have hafter : ∀ st : State B E, outcome none (exec (.startFetch f u) st) =
          .ok (st.startFetch f u) := fun _ => rfl
      rw [hafter, hafter, State.startFetch, State.startFetch, hpending]
      cases hfound : st.pendingFetches u with
      | some g => exact ⟨rfl, hcache, hpending, hsettled⟩
      | none => exact ⟨rfl, hcache, hself _ _ _, hsettled⟩

/-- An answer to a call of the user. -/
theorem SameFor.answers_too (h : SameFor userId run alone) (hth : run.cfg.thread i = some th)
    (huser : th.call.userId = userId) (hlocal : Local run userId i c) :
    SameFor userId (answer run i fault th next) (answer alone i fault th next) := by
  have hth' : alone.cfg.thread i = some th := by
    rw [h.threads i, hth, Option.filter_some_pos (by simpa using huser)]
  obtain ⟨hreply, hcache, hpending, hsettled⟩ := after_same hlocal h.cache
    h.pending (fun j hj => (h.calls j hj).settled) fault
  have hcalled : ∀ j, (answer run i fault th next).cfg.called j = run.cfg.called j :=
    Config.called_resume hth next _
  refine ⟨hcache, hpending, fun j => ?_, fun j hj => ?_⟩
  · by_cases hj : j = i
    · subst hj
      rw [answer_cfg, answer_cfg, Config.thread_resume, Config.thread_resume,
        if_pos (Config.id_of_thread hth), if_pos (Config.id_of_thread hth), hreply,
        Option.filter_some_pos (by simpa using huser)]
    · rw [answer_cfg, answer_cfg, Config.thread_resume_ne hth hj, Config.thread_resume_ne hth' hj]
      exact h.threads j
  · rw [hcalled] at hj
    obtain ⟨hlooked, hjoined, hloaded, hwritten, -⟩ := h.calls j hj
    by_cases hij : j = i
    · subst hij
      obtain ⟨hlooked', hjoined', hloaded', hwritten'⟩ := note_same (c := c)
        (reply (outcome fault (exec c run.cfg.state))) ⟨hlooked, hjoined, hloaded, hwritten⟩
      unfold answer
      rw [hreply]
      exact ⟨hlooked', hjoined', hloaded', hwritten', hsettled j hj⟩
    · obtain ⟨hlooked', hjoined', hloaded', hwritten'⟩ := note_beside alone.notes hij
        (reply (outcome fault (exec c alone.cfg.state)))
      obtain ⟨hlooked'', hjoined'', hloaded'', hwritten''⟩ := note_beside run.notes hij
        (reply (outcome fault (exec c run.cfg.state)))
      exact ⟨hlooked'.trans (hlooked.trans hlooked''.symm),
        hjoined'.trans (hjoined.trans hjoined''.symm),
        hloaded'.trans (hloaded.trans hloaded''.symm),
        hwritten'.trans (hwritten.trans hwritten''.symm), hsettled j hj⟩

/-- An answer to a call of another user. -/
theorem SameFor.answers_aside {userId' : UserId} (h : SameFor userId run alone)
    (hth : run.cfg.thread i = some th) (huser : th.call.userId = userId') (hne : userId' ≠ userId)
    (hlocal : Local run userId' i c) : SameFor userId (answer run i fault th next) alone := by
  obtain ⟨hcache, hpending, hsettled⟩ := after_aside run.cfg.state hlocal hne fault
  have hcalled : ∀ j, (answer run i fault th next).cfg.called j = run.cfg.called j :=
    Config.called_resume hth next _
  refine ⟨h.cache.trans hcache.symm, h.pending.trans hpending.symm, fun j => ?_, fun j hj => ?_⟩
  · by_cases hj : j = i
    · subst hj
      rw [answer_cfg, h.threads j, hth, Config.thread_resume, if_pos (Config.id_of_thread hth),
        Option.filter_some_neg, Option.filter_some_neg]
      · simpa [huser] using hne
      · simpa [huser] using hne
    · rw [answer_cfg, Config.thread_resume_ne hth hj]
      exact h.threads j
  · rw [hcalled] at hj
    have hij : j ≠ i := by
      rintro rfl
      rw [Config.called_of_thread hth, Option.map_some, huser] at hj
      exact hne (Option.some.inj hj)
    obtain ⟨hlooked, hjoined, hloaded, hwritten, hsettled'⟩ := h.calls j hj
    obtain ⟨hlooked', hjoined', hloaded', hwritten'⟩ := note_beside run.notes hij
      (reply (outcome fault (exec c run.cfg.state)))
    exact ⟨hlooked.trans hlooked'.symm, hjoined.trans hjoined'.symm, hloaded.trans hloaded'.symm,
      hwritten.trans hwritten'.symm, hsettled'.trans (hsettled j hij).symm⟩

end Others

-- ---------------------------------------------------------------------------
-- Whole runs
-- ---------------------------------------------------------------------------

section Whole

variable {cache : UserId → Option B} {run next : LoadRun B E} {es : List (Event (LoadCall B) E)}
  {e : Event (LoadCall B) E}

theorem Inv.singleFlight (h : Inv cache run) : SingleFlight cache run where
  one u f g hf hg := Option.some.inj (((h.pending u f).mpr hf).symm.trans ((h.pending u g).mpr hg))
  loader i th u b next hth hproc := by
    have hstage := h.stages i th hth
    rw [hproc] at hstage
    generalize hcall : th.call = k at hstage
    generalize hp : Proc.await (LoadCmd.loader u b) next = p at hstage
    cases hstage with
    | loading started unsettled _ _ =>
      obtain ⟨hc, -⟩ := Proc.await.inj hp
      obtain ⟨rfl, rfl⟩ := LoadCmd.loader.inj hc
      refine ⟨⟨b, ?_⟩, started, unsettled⟩
      rw [Config.called_of_thread hth, hcall]
    | _ => cases hp
  answered i th u b r hth hcall hproc := by
    have hstage := h.stages i th hth
    rw [hcall, hproc] at hstage
    generalize hp : Proc.done r = p at hstage
    cases hstage with
    | answered ends =>
      cases hp
      exact ends
    | _ => cases hp
  ended := h.ended
  looked := h.looked
  cached := h.cached
  pending := h.pending

variable [Inhabited E]

theorem Inv.joins_step (h : Inv cache run) (hstep : run.step e = some next) : Joins run next := by
  have hinv := h.step hstep
  intro i f hnone hsome
  rcases System.annotate_cases hstep with ⟨j, k, rfl, -, rfl⟩ |
    ⟨j, fault, th, c, rest, rfl, hth, hproc, -, hfault, rfl⟩
  · cases hnone.symm.trans hsome
  · by_cases hij : i = j
    · subst hij
      have hstage := h.stages i th hth
      rw [hproc] at hstage
      generalize hcall : th.call = k at hstage
      generalize hp : Proc.await c rest = p at hstage
      cases hstage with
      | @consulting u b unstarted =>
        obtain ⟨rfl, -⟩ := Proc.await.inj hp
        obtain rfl := hfault.resolve_right Bool.false_ne_true
        refine ⟨u, ⟨b, by rw [Config.called_of_thread hth, hcall]⟩, ?_⟩
        have hfound : some (run.cfg.state.startFetch i u).1.1 = some f :=
          (Function.update_self i _ run.notes.joined).symm.trans hsome
        cases hpending : run.cfg.state.pendingFetches u with
        | some g =>
          rw [State.startFetch, hpending] at hfound
          obtain rfl := Option.some.inj hfound
          exact Or.inl ((h.pending u g).mp hpending)
        | none =>
          have hstart : run.cfg.state.startFetch i u = ((i, true),
              { run.cfg.state with
                pendingFetches := Function.update run.cfg.state.pendingFetches u (some i) }) := by
            rw [State.startFetch, hpending]
          rw [hstart] at hfound
          refine Or.inr ⟨fun g hg => ?_, (Option.some.inj hfound).symm, (hinv.pending u i).mp ?_⟩
          · rw [(h.pending u g).mpr hg] at hpending
            cases hpending
          · change (run.cfg.state.startFetch i u).2.pendingFetches u = some i
            rw [hstart]
            exact Function.update_self ..
      | answered _ | deleted _ | expired _ => cases hp
      | _ =>
        obtain ⟨rfl, -⟩ := Proc.await.inj hp
        cases hnone.symm.trans hsome
    · cases hnone.symm.trans ((note_beside run.notes hij _).2.1.symm.trans hsome)

/-- Who has called is known at the end of the run. -/
theorem concerns_eq {run₁ : LoadRun B E} {i : ℕ} {k : LoadCall B} (userId : UserId)
    (hcalled : run₁.cfg.called i = some k) (hrest : run₁.follow es = some run) (hid : e.id = i) :
    concerns run userId e = decide (k.userId = userId) := by
  rw [concerns, hid, System.called_follow hcalled hrest, Option.map_some]
  simp only [Option.some.injEq]

theorem concerns_call {i : ℕ} {k : LoadCall B} (userId : UserId)
    (hrest : LoadRun.follow ⟨next.cfg.spawn i k (loadProg i k), next.notes⟩ es = some run) :
    concerns run userId (.call i k) = decide (k.userId = userId) := by
  refine concerns_eq userId ?_ hrest rfl
  exact (Config.called_spawn ..).trans (if_pos rfl)

theorem concerns_step {i : ℕ} {fault : Option E} {c : LoadCmd B E}
    {rest : Except E c.Reply → Rest B E}
    {th : Thread (LoadCall B) (LoadCmd B E) LoadCmd.Reply E (Option B)} (userId : UserId)
    (hth : next.cfg.thread i = some th)
    (hrest : (answer next i fault th rest).follow es = some run) :
    concerns run userId (.step i fault) = decide (th.call.userId = userId) :=
  concerns_eq userId ((Config.called_resume hth ..).trans (Config.called_of_thread hth)) hrest rfl

/-- The run as it would be without the calls for the others. -/
theorem runs_alone (hrun : (begin cache).follow es = some run) (userId : UserId) :
    ∃ alone, (begin cache).follow (es.filter (concerns run userId)) = some alone ∧
      SameFor userId run alone := by
  let Rel (run alone : LoadRun B E) : Prop :=
    Inv cache run ∧ Inv cache alone ∧ SameFor userId run alone
  have hbegin : Inv cache (begin cache : LoadRun B E) := inv_begin cache
  have hstart : Rel (begin cache) (begin cache) :=
    ⟨hbegin, hbegin, rfl, rfl, fun i => rfl, fun i _ => ⟨rfl, rfl, rfl, rfl, rfl⟩⟩
  have hkept : ∀ run₀ alone e run₁ es₁, Rel run₀ alone → run₀.step e = some run₁ →
      run₁.follow es₁ = some run → concerns run userId e = true →
      ∃ alone', alone.step e = some alone' ∧ Rel run₁ alone' := by
    rintro run₀ alone e run₁ es₁ ⟨hinv, hinv', hsame⟩ hstep hrest hkeep
    have hinv₁ := hinv.step hstep
    rcases System.annotate_cases hstep with ⟨i, k, rfl, hfresh, rfl⟩ |
      ⟨i, fault, th, c, next, rfl, hth, hproc, hready, hfault, rfl⟩
    · rw [concerns_call userId hrest] at hkeep
      obtain ⟨hfresh', hsame'⟩ := hsame.calls_too hinv hinv' hfresh (of_decide_eq_true hkeep)
      have hstep' : alone.step (.call i k) =
          some ⟨alone.cfg.spawn i k (loadProg i k), alone.notes⟩ :=
        System.annotate_call hfresh' k
      exact ⟨_, hstep', hinv₁, hinv'.step hstep', hsame'⟩
    · rw [concerns_step userId hth hrest] at hkeep
      have huser := of_decide_eq_true hkeep
      have hlocal := (hproc ▸ hinv.stages i th hth).isLocal
      rw [huser] at hlocal
      obtain ⟨hth', hready'⟩ := hsame.goes_on hth huser hlocal hready
      have hstep' : alone.step (.step i fault) = some (answer alone i fault th next) :=
        System.annotate_step hth' hproc hready' hfault
      exact ⟨_, hstep', hinv₁, hinv'.step hstep', hsame.answers_too hth huser hlocal⟩
  have hleft : ∀ run₀ alone e run₁ es₁, Rel run₀ alone → run₀.step e = some run₁ →
      run₁.follow es₁ = some run → concerns run userId e = false → Rel run₁ alone := by
    rintro run₀ alone e run₁ es₁ ⟨hinv, hinv', hsame⟩ hstep hrest hkeep
    have hinv₁ := hinv.step hstep
    rcases System.annotate_cases hstep with ⟨i, k, rfl, hfresh, rfl⟩ |
      ⟨i, fault, th, c, next, rfl, hth, hproc, -, -, rfl⟩
    · rw [concerns_call userId hrest] at hkeep
      exact ⟨hinv₁, hinv', hsame.calls_aside hfresh (of_decide_eq_false hkeep)⟩
    · rw [concerns_step userId hth hrest] at hkeep
      have hlocal := (hproc ▸ hinv.stages i th hth).isLocal
      exact ⟨hinv₁, hinv', hsame.answers_aside hth rfl (of_decide_eq_false hkeep) hlocal⟩
  obtain ⟨alone, hfollow, -, -, hsame⟩ := System.follow_filter hkept hleft hstart hrun
  exact ⟨alone, hfollow, hsame⟩

/-- **Balance loads are single-flight**, in every run of calls and for each user
alone. -/
theorem balances_single_flight (hrun : (begin cache).follow es = some run) :
    SingleFlight cache run ∧ (∀ e next, run.step e = some next → Joins run next) ∧
      ∀ userId, ∃ alone, (begin cache).follow (es.filter (concerns run userId)) = some alone ∧
        SameFor userId run alone := by
  have hinv := inv_of_follow hrun
  exact ⟨hinv.singleFlight, fun _ _ hstep => hinv.joins_step hstep, runs_alone hrun⟩

end Whole

/-- Two calls for user 1 miss together, and the second joins the first; a call for
user 2 is under way. -/
def together : List (Event (LoadCall ℕ) String) :=
  [.call 0 (.getWalletBalances 1 5), .call 1 (.getWalletBalances 1 6),
    .call 2 (.getWalletBalances 2 7), .step 0 none, .step 1 none, .step 2 none, .step 0 none,
    .step 1 none, .step 0 none, .step 0 none, .step 0 none, .step 1 none]

theorem together_single_flight : ∃ run : LoadRun ℕ String,
    (begin fun _ => none).follow together = some run ∧ SingleFlight (fun _ => none) run ∧
      run.notes.joined 1 = some 0 := by
  have hrun : ((begin fun _ => none : LoadRun ℕ String).follow together).isSome = true := rfl
  obtain ⟨run, hfollow⟩ := Option.isSome_iff_exists.mp hrun
  refine ⟨run, hfollow, (balances_single_flight hfollow).1, ?_⟩
  cases hfollow
  rfl

/-- The answer was in the cache, or it is how a loader ended that the call has
started or found. -/
def OfLoader (run : LoadRun B E) (i : ℕ) (r : Except E (Option B)) : Prop :=
  (∃ b, run.notes.looked i = some (.ok (some b)) ∧ r = .ok (some b)) ∨
    ∃ f r', run.notes.joined i = some f ∧ run.notes.loaded f = some r' ∧ r = r'.map some

/-- The run lets call 0 end with an answer that is of no loader. -/
def EndsOtherwise (es : List (Event (LoadCall ℕ) String)) : Prop :=
  ∃ (run : LoadRun ℕ String) (th : Thread (LoadCall ℕ) (LoadCmd ℕ String) LoadCmd.Reply String
    (Option ℕ)) (r : Except String (Option ℕ)),
    (begin fun _ => none).follow es = some run ∧ run.cfg.thread 0 = some th ∧
      th.proc = .done r ∧ ¬ OfLoader run 0 r

/-- The lookup of a call rejects, or the write of a fetch whose loader has
resolved. -/
theorem answers_beyond_loader :
    EndsOtherwise [.call 0 (.getWalletBalances 1 5), .step 0 (some "cache is down")] ∧
      EndsOtherwise [.call 0 (.getWalletBalances 1 5), .step 0 none, .step 0 none, .step 0 none,
        .step 0 (some "cache is down"), .step 0 none, .step 0 none] := by
  constructor
  · refine ⟨_, _, _, rfl, rfl, rfl, ?_⟩
    rintro (⟨b, -, hr⟩ | ⟨f, r, hjoined, -, -⟩)
    · cases hr
    · cases hjoined
  · refine ⟨_, _, _, rfl, rfl, rfl, ?_⟩
    rintro (⟨b, -, hr⟩ | ⟨f, r, hjoined, hloaded, hr⟩)
    · cases hr
    · obtain rfl : 0 = f := Option.some.inj hjoined
      obtain rfl : .ok 5 = r := Option.some.inj hloaded
      cases hr

end BalanceLoads

end NexaFx
