import NexaFx.Model.ExchangeRate
import NexaFx.Safety.RateCache

/-!
# NexaFx — exchange rates are fresh and of the right pair

How far a call has come can be read off its own events (`Progress`), and every
entry of the cache goes back to an answer for a pair with its key
(`Sourced`). Both are kept by every step (`Inv.step`), so they hold in every
interleaving.

Main result: `getRate_correct`.
-/

namespace NexaFx

open Async

namespace ExchangeRate

open RateCache

variable (mapping : CaseMapping) (ttlMs : ℚ)

/-! ## What a call has done -/

def RateEvent.call : RateEvent → ℕ
  | .found call .. | .answered call .. | .stored call .. => call

/-- The events of call `i`. -/
def own (i : ℕ) (log : List RateEvent) : List RateEvent := log.filter fun event => event.call = i

theorem own_append (i : ℕ) (log : List RateEvent) (event : RateEvent) :
    own i (log ++ [event]) = if event.call = i then own i log ++ [event] else own i log := by
  rw [own, List.filter_append]
  split
  · rw [List.filter_cons_of_pos (by simpa), List.filter_nil]
    rfl
  · rw [List.filter_cons_of_neg (by simpa), List.filter_nil, List.append_nil]
    rfl

theorem mem_own {i : ℕ} {log : List RateEvent} {event : RateEvent} (h : event ∈ log)
    (hcall : event.call = i) : event ∈ own i log :=
  List.mem_filter.mpr ⟨h, by simpa using hcall⟩

/-- A rate that the code takes: neither missing nor zero. -/
def Usable (rate : Option ℚ) : Prop := ∃ r ≠ 0, rate = some r

/-- There is nothing fresh in the cache. -/
def Misses (now : Time) (cached : Option CacheEntry) : Prop :=
  ∀ entry, cached = some entry → ¬ fresh ttlMs now entry

def cachedResult (base target : Code) (now : Time) (entry : CacheEntry) : RateResult where
  base := base
  target := target
  rate := entry.rate
  provider := entry.provider
  fetchedAt := entry.fetchedAt
  ageMs := now - entry.fetchedAt

def fetchedResult (base target : Code) (entry : CacheEntry) : RateResult where
  base := base
  target := target
  rate := entry.rate
  provider := entry.provider
  fetchedAt := entry.fetchedAt
  ageMs := 0

section Calls

variable (i : ℕ) (base target : Code)

/-- What is left once `entry` has been fetched. -/
def storing (entry : CacheEntry) : RateProc (Option RateResult) :=
  (await (.store i (cacheKey mapping base target) entry)).bind fun _ =>
    .done (.ok (some (fetchedResult base target entry)))

/-- What is left after a miss. -/
def fetching : RateProc (Option RateResult) :=
  (fetchWithFallback mapping i base target).bind (storing mapping i base target)

/-- What is left after the first provider has failed. -/
def fallingBack : RateProc (Option RateResult) :=
  ((fetchFromExchangeRateHost mapping i base target).attempt.bind fun fetched =>
    match fetched with
    | .ok entry => .done (.ok entry)
    | .error _ => .done (.error unavailable)).bind (storing mapping i base target)

/-- The events of a call that has fetched `entry`. -/
inductive Fetched : List RateEvent → CacheEntry → Prop
  | first {now t : Time} {cached : Option CacheEntry} {rate : ℚ} (misses : Misses ttlMs now cached)
      (nonzero : rate ≠ 0) :
      Fetched [.found i (cacheKey mapping base target) now cached,
        .answered i .openexchangerates base target (some rate) t] ⟨rate, .openexchangerates, t⟩
  | second {now t t' : Time} {cached : Option CacheEntry} {rate : Option ℚ} {rate' : ℚ}
      (misses : Misses ttlMs now cached) (unusable : ¬ Usable rate) (nonzero : rate' ≠ 0) :
      Fetched [.found i (cacheKey mapping base target) now cached,
        .answered i .openexchangerates base target rate t,
        .answered i .exchangeratehost base target (some rate') t'] ⟨rate', .exchangeratehost, t'⟩

/-- The events of a call, and what is left of it. -/
inductive Progress : List RateEvent → RateProc (Option RateResult) → Prop
  | begun : Progress [] (prog mapping ttlMs i (.getRate base target))
  | hit {now : Time} {entry : CacheEntry} (isFresh : fresh ttlMs now entry) :
      Progress [.found i (cacheKey mapping base target) now (some entry)]
        (.done (.ok (some (cachedResult base target now entry))))
  | missed {now : Time} {cached : Option CacheEntry} (misses : Misses ttlMs now cached) :
      Progress [.found i (cacheKey mapping base target) now cached] (fetching mapping i base target)
  | fallback {now t : Time} {cached : Option CacheEntry} {rate : Option ℚ}
      (misses : Misses ttlMs now cached) (unusable : ¬ Usable rate) :
      Progress [.found i (cacheKey mapping base target) now cached,
        .answered i .openexchangerates base target rate t] (fallingBack mapping i base target)
  | failed {now t t' : Time} {cached : Option CacheEntry} {rate rate' : Option ℚ}
      (misses : Misses ttlMs now cached) (unusable : ¬ Usable rate) (unusable' : ¬ Usable rate') :
      Progress [.found i (cacheKey mapping base target) now cached,
        .answered i .openexchangerates base target rate t,
        .answered i .exchangeratehost base target rate' t'] (.done (.error unavailable))
  | fetched {events : List RateEvent} {entry : CacheEntry}
      (fetched : Fetched mapping ttlMs i base target events entry) :
      Progress events (storing mapping i base target entry)
  | stored {events : List RateEvent} {entry : CacheEntry}
      (fetched : Fetched mapping ttlMs i base target events entry) :
      Progress (events ++ [.stored i (cacheKey mapping base target) entry])
        (.done (.ok (some (fetchedResult base target entry))))

end Calls

/-! ## One step -/

variable {mapping ttlMs} {i : ℕ} {base target : Code} {st st' : State}

theorem misses_of_filter {now : Time} {cached : Option CacheEntry}
    (h : cached.filter (fun cached => fresh ttlMs now cached) = none) : Misses ttlMs now cached := by
  rintro entry rfl hfresh
  simp [Option.filter, hfresh] at h

variable (mapping ttlMs) in
/-- The lookup decides between an answer from the cache and a fetch. -/
theorem prog_next (i : ℕ) (base target : Code) :
    ∃ next, prog mapping ttlMs i (.getRate base target) =
        .await (.lookup i (cacheKey mapping base target)) next ∧
      ∀ cached now,
        (∀ entry, cached = some entry → fresh ttlMs now entry →
          next (.ok (cached, now)) = .done (.ok (some (cachedResult base target now entry)))) ∧
        (Misses ttlMs now cached → next (.ok (cached, now)) = fetching mapping i base target) := by
  refine ⟨_, rfl, fun cached now => ⟨?_, fun hmiss => ?_⟩⟩
  · rintro entry rfl hfresh
    have hsome : (some entry).filter (fun cached => fresh ttlMs now cached) = some entry := by
      simp [Option.filter, hfresh]
    simp only [Proc.done_ok_bind, hsome]
    rfl
  · have hnone : cached.filter (fun cached => fresh ttlMs now cached) = none := by
      cases cached with
      | none => rfl
      | some entry => simp [Option.filter, hmiss entry rfl]
    simp only [Proc.done_ok_bind, hnone, Proc.bind_eq, Proc.bind_assoc]
    rfl

variable (mapping) in
/-- The answer of the first provider decides between storing and falling back. -/
theorem fetching_next (i : ℕ) (base target : Code) :
    ∃ next, fetching mapping i base target = .await (.request i .openexchangerates base target) next ∧
      ∀ res now,
        (∀ rate, rateIn mapping base target .openexchangerates res = some rate → rate ≠ 0 →
          next (.ok (res, now)) = storing mapping i base target ⟨rate, .openexchangerates, now⟩) ∧
        (¬ Usable (rateIn mapping base target .openexchangerates res) →
          next (.ok (res, now)) = fallingBack mapping i base target) := by
  refine ⟨_, rfl, fun res now => ⟨fun rate hrate hne => ?_, fun hunusable => ?_⟩⟩
  · match res with
    | .ok (some rates) =>
      have hrate' : rates (rateKey mapping base target .openexchangerates) = some rate := hrate
      simp only [Proc.done_ok_bind, hrate', hne, if_false]
      rfl
  · match res with
    | .error err => rfl
    | .ok none => rfl
    | .ok (some rates) =>
      cases hrate : rates (rateKey mapping base target .openexchangerates) with
      | none =>
        simp only [Proc.done_ok_bind, hrate]
        rfl
      | some rate =>
        have hzero : rate = 0 := by
          by_contra hne
          exact hunusable ⟨rate, hne, hrate⟩
        simp only [Proc.done_ok_bind, hrate, hzero, if_true]
        rfl

variable (mapping) in
theorem fallingBack_next (i : ℕ) (base target : Code) :
    ∃ next, fallingBack mapping i base target =
        .await (.request i .exchangeratehost base target) next ∧
      ∀ res now,
        (∀ rate, rateIn mapping base target .exchangeratehost res = some rate → rate ≠ 0 →
          next (.ok (res, now)) = storing mapping i base target ⟨rate, .exchangeratehost, now⟩) ∧
        (¬ Usable (rateIn mapping base target .exchangeratehost res) →
          next (.ok (res, now)) = .done (.error unavailable)) := by
  refine ⟨_, rfl, fun res now => ⟨fun rate hrate hne => ?_, fun hunusable => ?_⟩⟩
  · match res with
    | .ok (some rates) =>
      have hrate' : rates (rateKey mapping base target .exchangeratehost) = some rate := hrate
      simp only [Proc.done_ok_bind, hrate', hne, if_false]
      rfl
  · match res with
    | .error err => rfl
    | .ok none => rfl
    | .ok (some rates) =>
      cases hrate : rates (rateKey mapping base target .exchangeratehost) with
      | none =>
        simp only [Proc.done_ok_bind, hrate]
        rfl
      | some rate =>
        have hzero : rate = 0 := by
          by_contra hne
          exact hunusable ⟨rate, hne, hrate⟩
        simp only [Proc.done_ok_bind, hrate, hzero, if_true]
        rfl

/-- What an event does to the cache. -/
def RateEvent.apply : RateEvent → (String → Option CacheEntry) → String → Option CacheEntry
  | .stored _ key entry, cache => Function.update cache key (some entry)
  | _, cache => cache

/-- The step to `st'` is `event`. -/
structure Effect (st : State) (event : RateEvent) (st' : State) : Prop where
  log : st'.log = st.log ++ [event]
  now : st'.now = st.now
  cache : st'.cache = event.apply st.cache
  found : ∀ call key now cached, event = .found call key now cached →
    now = st.now ∧ cached = st.cache key
  answered : ∀ call provider b t rate now, event = .answered call provider b t rate now →
    now = st.now

theorem Effect.lookup (st : State) (i : ℕ) (key : String) :
    Effect st (.found i key st.now (st.cache key))
      { st with log := st.log ++ [.found i key st.now (st.cache key)] } where
  log := rfl
  now := rfl
  cache := rfl
  found := by
    rintro call key' now cached heq
    cases heq
    exact ⟨rfl, rfl⟩
  answered := by
    rintro call provider b t rate now heq
    cases heq

theorem Effect.request (st : State) (i : ℕ) (provider : Provider) (base target : Code)
    (rate : Option ℚ) :
    Effect st (.answered i provider base target rate st.now)
      { st with
        served := st.served + 1
        log := st.log ++ [.answered i provider base target rate st.now] } where
  log := rfl
  now := rfl
  cache := rfl
  found := by
    rintro call key now cached heq
    cases heq
  answered := by
    rintro call provider' b t rate' now heq
    cases heq
    rfl

theorem Effect.store (st : State) (i : ℕ) (key : String) (entry : CacheEntry) :
    Effect st (.stored i key entry)
      { st with
        cache := Function.update st.cache key (some entry)
        log := st.log ++ [.stored i key entry] } where
  log := rfl
  now := rfl
  cache := rfl
  found := by
    rintro call key now cached heq
    cases heq
  answered := by
    rintro call provider b t rate now heq
    cases heq

/-- Every step of a call is one more event of it, and stores what it fetched. -/
theorem Progress.step {events : List RateEvent} {p : RateProc (Option RateResult)}
    (h : Progress mapping ttlMs i base target events p) {c : RateCmd}
    {next : Except RateError c.Reply → RateProc (Option RateResult)} (hproc : p = .await c next)
    {a : c.Reply} (hexec : exec mapping c st = .ok (a, st')) :
    ∃ event, Effect st event st' ∧ event.call = i ∧
      Progress mapping ttlMs i base target (events ++ [event]) (next (.ok a)) ∧
      ∀ call key entry, event = .stored call key entry →
        key = cacheKey mapping base target ∧ Fetched mapping ttlMs i base target events entry := by
  cases h with
  | begun =>
    obtain ⟨next', heq, hnext⟩ := prog_next mapping ttlMs i base target
    rw [heq] at hproc
    cases hproc
    cases hexec
    refine ⟨_, Effect.lookup st i _, rfl, ?_, fun _ _ _ heq => by cases heq⟩
    by_cases hmiss : Misses ttlMs st.now (st.cache (cacheKey mapping base target))
    · rw [(hnext _ _).2 hmiss]
      exact .missed hmiss
    · simp only [Misses, not_forall, not_not] at hmiss
      obtain ⟨entry, hentry, hfresh⟩ := hmiss
      rw [(hnext _ _).1 entry hentry hfresh, hentry]
      exact .hit hfresh
  | hit hfresh => cases hproc
  | failed hmiss hunusable hunusable' => cases hproc
  | stored hfetched => cases hproc
  | missed hmiss =>
    obtain ⟨next', heq, hnext⟩ := fetching_next mapping i base target
    rw [heq] at hproc
    cases hproc
    cases hexec
    refine ⟨_, Effect.request st i _ _ _ _, rfl, ?_, fun _ _ _ heq => by cases heq⟩
    by_cases husable : Usable (rateIn mapping base target .openexchangerates (st.net st.served))
    · obtain ⟨rate, hne, hrate⟩ := husable
      rw [(hnext _ _).1 rate hrate hne, hrate]
      exact .fetched (.first hmiss hne)
    · rw [(hnext _ _).2 husable]
      exact .fallback hmiss husable
  | fallback hmiss hunusable =>
    obtain ⟨next', heq, hnext⟩ := fallingBack_next mapping i base target
    rw [heq] at hproc
    cases hproc
    cases hexec
    refine ⟨_, Effect.request st i _ _ _ _, rfl, ?_, fun _ _ _ heq => by cases heq⟩
    by_cases husable : Usable (rateIn mapping base target .exchangeratehost (st.net st.served))
    · obtain ⟨rate, hne, hrate⟩ := husable
      rw [(hnext _ _).1 rate hrate hne, hrate]
      exact .fetched (.second hmiss hunusable hne)
    · rw [(hnext _ _).2 husable]
      exact .failed hmiss hunusable husable
  | fetched hfetched =>
    cases hproc
    cases hexec
    refine ⟨_, Effect.store st i _ _, rfl, .stored hfetched, fun _ _ _ heq => ?_⟩
    cases heq
    exact ⟨rfl, hfetched⟩

/-! ## All calls -/

/-- The entry goes back to an answer, not later than `now`, for a pair with this
key. -/
def Sourced (mapping : CaseMapping) (log : List RateEvent) (now : Time) (key : String)
    (entry : CacheEntry) : Prop :=
  ∃ call b t, .answered call entry.provider b t (some entry.rate) entry.fetchedAt ∈ log ∧
    cacheKey mapping b t = key ∧ entry.rate ≠ 0 ∧ entry.fetchedAt ≤ now

theorem Sourced.mono {log log' : List RateEvent} {now now' : Time} {key : String}
    {entry : CacheEntry} (h : Sourced mapping log now key entry) (hlog : log ⊆ log')
    (hnow : now ≤ now') : Sourced mapping log' now' key entry := by
  obtain ⟨call, b, t, hmem, hkey, hne, hle⟩ := h
  exact ⟨call, b, t, hlog hmem, hkey, hne, hle.trans hnow⟩

theorem Fetched.answered {events : List RateEvent} {entry : CacheEntry}
    (h : Fetched mapping ttlMs i base target events entry) :
    .answered i entry.provider base target (some entry.rate) entry.fetchedAt ∈ events ∧
      entry.rate ≠ 0 := by
  cases h with
  | first _ hne => exact ⟨by simp, hne⟩
  | second _ _ hne => exact ⟨by simp, hne⟩

/-- The cache that the events leave. -/
def replay (log : List RateEvent) : String → Option CacheEntry :=
  log.foldl (fun cache event => event.apply cache) fun _ => none

theorem replay_append (log : List RateEvent) (event : RateEvent) :
    replay (log ++ [event]) = event.apply (replay log) := by
  rw [replay, List.foldl_append]
  rfl

/-- The events of a call of either kind, and what is left of it. -/
def Proceeds (mapping : CaseMapping) (ttlMs : ℚ) (i : ℕ) :
    RateCall → List RateEvent → RateProc (Option RateResult) → Prop
  | .getRate base target, events, p => Progress mapping ttlMs i base target events p
  | .tick ms, events, p =>
    events = [] ∧ (p = prog mapping ttlMs i (.tick ms) ∨ p = .done (.ok none))

structure Inv (mapping : CaseMapping) (ttlMs : ℚ) (cfg : RatePool) : Prop where
  times : ∀ call provider b t rate now, .answered call provider b t rate now ∈ cfg.state.log →
    now ≤ cfg.state.now
  sourced : ∀ key entry, cfg.state.cache key = some entry →
    Sourced mapping cfg.state.log cfg.state.now key entry
  found : ∀ call key now entry, .found call key now (some entry) ∈ cfg.state.log →
    Sourced mapping cfg.state.log now key entry
  replayed : cfg.state.cache = replay cfg.state.log
  fresh : ∀ i, cfg.thread i = none → own i cfg.state.log = []
  proceeds : ∀ i th, cfg.thread i = some th →
    Proceeds mapping ttlMs i th.call (own i cfg.state.log) th.proc

namespace Inv

variable {cfg : RatePool}

theorem spawn (h : Inv mapping ttlMs cfg) {i : ℕ} (k : RateCall) (hfresh : cfg.thread i = none) :
    Inv mapping ttlMs (cfg.spawn i k (prog mapping ttlMs i k)) where
  times := h.times
  sourced := h.sourced
  found := h.found
  replayed := h.replayed
  fresh j hj := by
    rw [Config.thread_spawn] at hj
    split at hj
    · cases hj
    · exact h.fresh j hj
  proceeds j th hth := by
    rcases Config.thread_spawn_cases hth with ⟨rfl, rfl⟩ | hold
    · rw [Config.spawn_state, h.fresh j hfresh]
      cases k with
      | getRate base target => exact .begun
      | tick ms => exact ⟨rfl, Or.inl rfl⟩
    · exact h.proceeds j th hold

/-- A step of the clock. -/
theorem tick (h : Inv mapping ttlMs cfg) {th : Thread RateCall RateCmd RateCmd.Reply RateError
    (Option RateResult)} (hth : cfg.thread i = some th) {c : RateCmd}
    {next : Except RateError c.Reply → RateProc (Option RateResult)} {a : c.Reply} (ms : ℕ)
    (hown : Proceeds mapping ttlMs i th.call (own i cfg.state.log) (next (.ok a))) :
    Inv mapping ttlMs (cfg.resume th next (.ok (a, { cfg.state with now := cfg.state.now + ms }))) where
  times call provider b t rate now hmem :=
    (h.times call provider b t rate now hmem).trans (Nat.le_add_right _ _)
  sourced key entry hentry :=
    (h.sourced key entry hentry).mono (List.Subset.refl _) (Nat.le_add_right _ _)
  found := h.found
  replayed := h.replayed
  fresh j hj := by
    rw [Config.thread_resume] at hj
    split at hj
    · cases hj
    · exact h.fresh j hj
  proceeds j th' hth' := by
    rcases Config.thread_resume_cases hth hth' with ⟨rfl, rfl⟩ | hold
    · exact hown
    · exact h.proceeds j th' hold

/-- One more event of call `i`. -/
theorem event (h : Inv mapping ttlMs cfg) {th : Thread RateCall RateCmd RateCmd.Reply RateError
    (Option RateResult)} (hth : cfg.thread i = some th) (hcall : th.call = .getRate base target)
    {c : RateCmd} {next : Except RateError c.Reply → RateProc (Option RateResult)} {a : c.Reply}
    {event : RateEvent} (heffect : Effect cfg.state event st') (hi : event.call = i)
    (hprogress : Progress mapping ttlMs i base target (own i cfg.state.log ++ [event]) (next (.ok a)))
    (hstored : ∀ call key entry, event = .stored call key entry →
      key = cacheKey mapping base target ∧
        Fetched mapping ttlMs i base target (own i cfg.state.log) entry) :
    Inv mapping ttlMs (cfg.resume th next (.ok (a, st'))) := by
  have hsub : cfg.state.log ⊆ st'.log := by
    rw [heffect.log]
    exact List.subset_append_left _ _
  have hnow : cfg.state.now ≤ st'.now := heffect.now.ge
  have hother (j : ℕ) (hj : j ≠ i) : own j st'.log = own j cfg.state.log := by
    rw [heffect.log, own_append, if_neg (by rw [hi]; exact hj.symm)]
  constructor
  case times =>
    intro call provider b t rate now hmem
    rw [Config.resume_state, after_ok, heffect.log, List.mem_append, List.mem_singleton] at hmem
    rcases hmem with hmem | heq
    · exact (h.times call provider b t rate now hmem).trans hnow
    · rw [heffect.answered _ _ _ _ _ _ heq.symm]
      exact hnow
  case sourced =>
    intro key entry hentry
    rw [Config.resume_state, after_ok, heffect.cache] at hentry
    have hold (hentry : cfg.state.cache key = some entry) :
        Sourced mapping st'.log st'.now key entry := (h.sourced key entry hentry).mono hsub hnow
    cases hevent : event with
    | found call key' now cached =>
      rw [hevent] at hentry
      exact hold hentry
    | answered call provider b t rate now =>
      rw [hevent] at hentry
      exact hold hentry
    | stored call key' entry' =>
      obtain ⟨hkey, hfetched⟩ := hstored _ _ _ hevent
      rw [hevent, RateEvent.apply, Function.update_apply] at hentry
      split at hentry
      · rename_i heq
        obtain ⟨hmem, hne⟩ := hfetched.answered
        cases hentry
        have hlog := (List.mem_filter.mp hmem).1
        exact ⟨i, base, target, hsub hlog, by rw [heq, hkey], hne,
          (h.times _ _ _ _ _ _ hlog).trans hnow⟩
      · exact hold hentry
  case found =>
    intro call key now entry hmem
    rw [Config.resume_state, after_ok, heffect.log, List.mem_append, List.mem_singleton] at hmem
    rcases hmem with hmem | heq
    · exact (h.found call key now entry hmem).mono hsub le_rfl
    · obtain ⟨rfl, hcached⟩ := heffect.found _ _ _ _ heq.symm
      exact (h.sourced key entry hcached.symm).mono hsub le_rfl
  case replayed =>
    rw [Config.resume_state, after_ok, heffect.cache, heffect.log, replay_append, h.replayed]
  case fresh =>
    intro j hj
    rw [Config.thread_resume, Config.id_of_thread hth] at hj
    split at hj
    · cases hj
    · rename_i hne
      rw [Config.resume_state, after_ok, hother j (Ne.symm hne)]
      exact h.fresh j hj
  case proceeds =>
    intro j th' hth'
    rw [Config.resume_state, after_ok]
    rcases eq_or_ne j i with rfl | hne
    · rw [Config.thread_resume, if_pos (Config.id_of_thread hth)] at hth'
      cases hth'
      dsimp only
      rw [hcall, heffect.log, own_append, if_pos hi]
      exact hprogress
    · rw [Config.thread_resume_ne hth hne] at hth'
      rw [hother j hne]
      exact h.proceeds j th' hth'

end Inv

theorem inv_start (net : ℕ → Except RateError (Option Rates)) (now : Time) :
    Inv mapping ttlMs (start net now) where
  times _ _ _ _ _ _ hmem := nomatch hmem
  sourced _ _ hentry := nomatch hentry
  found _ _ _ _ hmem := nomatch hmem
  replayed := rfl
  fresh _ _ := rfl
  proceeds _ _ hth := nomatch hth

theorem inv_of_reach {net : ℕ → Except RateError (Option Rates)} {now : Time} {cfg : RatePool}
    (h : Reach (server mapping ttlMs) .free (start net now) cfg) : Inv mapping ttlMs cfg := by
  refine h.invariant (inv_start net now) (fun cfg i k hinv hfresh _ => hinv.spawn k hfresh) ?_
  intro cfg i fault th c next hinv hth hproc _ hfault _
  obtain rfl : fault = none := by simpa [server] using hfault
  rw [outcome_none]
  have hown := hinv.proceeds i th hth
  cases hcall : th.call with
  | getRate base target =>
    rw [hcall] at hown
    have hok : ∃ a st', exec mapping c cfg.state = .ok (a, st') := by
      cases c <;> exact ⟨_, _, rfl⟩
    obtain ⟨a, st', hexec⟩ := hok
    obtain ⟨event, heffect, hi, hprogress, hstored⟩ := Progress.step hown hproc hexec
    have hserver : (server mapping ttlMs).exec c cfg.state = .ok (a, st') := hexec
    rw [hserver]
    exact hinv.event hth hcall heffect hi hprogress hstored
  | tick ms =>
    rw [hcall] at hown
    obtain ⟨hnil, hprog | hdone⟩ := hown
    · rw [hprog] at hproc
      cases hproc
      refine hinv.tick hth ms ?_
      rw [hcall]
      exact ⟨hnil, Or.inr rfl⟩
    · rw [hdone] at hproc
      cases hproc

/-! ## What a call answers -/

/-- Among the answers to the call, a rate of the first provider is the only one. -/
def FirstWins (i : ℕ) (events : List RateEvent) : Prop :=
  ∀ provider b t rate now b' t' rate' now', .answered i provider b t (some rate) now ∈ events →
    rate ≠ 0 → .answered i .openexchangerates b' t' (some rate') now' ∈ events → rate' ≠ 0 →
    provider = .openexchangerates ∧ rate = rate'

theorem Fetched.firstWins {events : List RateEvent} {entry : CacheEntry}
    (h : Fetched mapping ttlMs i base target events entry) : FirstWins i events := by
  intro provider b t rate now b' t' rate' now' hmem _ hmem' hne'
  cases h with
  | first _ _ =>
    simp only [List.mem_cons, reduceCtorEq, List.not_mem_nil, or_false, false_or,
      RateEvent.answered.injEq, Option.some.injEq] at hmem hmem'
    exact ⟨hmem.2.1, hmem.2.2.2.2.1.trans hmem'.2.2.2.2.1.symm⟩
  | second _ hunusable _ =>
    simp only [List.mem_cons, reduceCtorEq, List.not_mem_nil, or_false, false_or,
      RateEvent.answered.injEq, and_false, false_and] at hmem'
    exact absurd ⟨rate', hne', hmem'.2.2.2.2.1.symm⟩ hunusable

theorem Progress.firstWins {events : List RateEvent} {p : RateProc (Option RateResult)}
    (h : Progress mapping ttlMs i base target events p) : FirstWins i events := by
  cases h with
  | fetched hfetched => exact hfetched.firstWins
  | stored hfetched =>
    intro provider b t rate now b' t' rate' now' hmem hne hmem' hne'
    simp only [List.mem_append, List.mem_singleton, reduceCtorEq, or_false] at hmem hmem'
    exact hfetched.firstWins provider b t rate now b' t' rate' now' hmem hne hmem' hne'
  | begun =>
    intro provider b t rate now b' t' rate' now' hmem
    nomatch hmem
  | hit _ =>
    intro provider b t rate now b' t' rate' now' hmem
    simp at hmem
  | missed _ =>
    intro provider b t rate now b' t' rate' now' hmem
    simp at hmem
  | fallback _ hunusable =>
    intro provider b t rate now b' t' rate' now' _ _ hmem' hne'
    simp only [List.mem_cons, reduceCtorEq, List.not_mem_nil, or_false, false_or,
      RateEvent.answered.injEq] at hmem'
    exact absurd ⟨rate', hne', hmem'.2.2.2.2.1.symm⟩ hunusable
  | failed _ hunusable _ =>
    intro provider b t rate now b' t' rate' now' _ _ hmem' hne'
    simp only [List.mem_cons, reduceCtorEq, List.not_mem_nil, or_false, false_or,
      RateEvent.answered.injEq, false_and, and_false] at hmem'
    exact absurd ⟨rate', hne', hmem'.2.2.2.2.1.symm⟩ hunusable

/-- A call that both providers failed has thrown and stores nothing. -/
theorem Progress.failed_of {events : List RateEvent} {p : RateProc (Option RateResult)}
    (h : Progress mapping ttlMs i base target events p) {b t b' t' : Code} {rate rate' : Option ℚ}
    {now now' : Time} (hmem : .answered i .openexchangerates b t rate now ∈ events)
    (hmem' : .answered i .exchangeratehost b' t' rate' now' ∈ events)
    (hunusable' : ¬ Usable rate') :
    p = .done (.error unavailable) ∧ ∀ key entry, .stored i key entry ∉ events := by
  have hfetched {events : List RateEvent} {entry : CacheEntry}
      (h : Fetched mapping ttlMs i base target events entry)
      (hmem : .answered i .openexchangerates b t rate now ∈ events)
      (hmem' : .answered i .exchangeratehost b' t' rate' now' ∈ events) : False := by
    cases h with
    | first _ hne => simp at hmem'
    | second _ _ hne =>
      simp only [List.mem_cons, reduceCtorEq, List.not_mem_nil, or_false, false_or,
        RateEvent.answered.injEq, and_false, false_and] at hmem'
      exact hunusable' ⟨_, hne, hmem'.2.2.2.2.1⟩
  cases h with
  | failed _ _ _ => exact ⟨rfl, by simp⟩
  | fetched h => exact (hfetched h hmem hmem').elim
  | stored h =>
    simp only [List.mem_append, List.mem_singleton, reduceCtorEq, or_false] at hmem hmem'
    exact (hfetched h hmem hmem').elim
  | begun => nomatch hmem
  | hit _ => simp at hmem
  | missed _ => simp at hmem
  | fallback _ _ => simp at hmem'

/-- A call that found a fresh entry has answered with it and asked nobody. -/
theorem Progress.hit_of {events : List RateEvent} {p : RateProc (Option RateResult)}
    (h : Progress mapping ttlMs i base target events p) {key : String} {now : Time}
    {entry : CacheEntry} (hmem : .found i key now (some entry) ∈ events)
    (hfresh : fresh ttlMs now entry) :
    p = .done (.ok (some (cachedResult base target now entry))) ∧
      ∀ provider b t rate now, .answered i provider b t rate now ∉ events := by
  have hmiss {now' : Time} {cached : Option CacheEntry} {rest : List RateEvent}
      (hmisses : Misses ttlMs now' cached)
      (hmem : .found i key now (some entry) ∈
        .found i (cacheKey mapping base target) now' cached :: rest)
      (hrest : .found i key now (some entry) ∉ rest) : False := by
    rcases List.mem_cons.mp hmem with heq | hmem
    · cases heq
      exact hmisses entry rfl hfresh
    · exact hrest hmem
  have hfetched {events : List RateEvent} {entry' : CacheEntry}
      (h : Fetched mapping ttlMs i base target events entry')
      (hmem : .found i key now (some entry) ∈ events) : False := by
    cases h with
    | first hmisses _ => exact hmiss hmisses hmem (by simp)
    | second hmisses _ _ => exact hmiss hmisses hmem (by simp)
  cases h with
  | hit _ =>
    rw [List.mem_singleton] at hmem
    cases hmem
    exact ⟨rfl, by simp⟩
  | begun => nomatch hmem
  | missed hmisses => exact (hmiss hmisses hmem (by simp)).elim
  | fallback hmisses _ => exact (hmiss hmisses hmem (by simp)).elim
  | failed hmisses _ _ => exact (hmiss hmisses hmem (by simp)).elim
  | fetched h => exact (hfetched h hmem).elim
  | stored h =>
    simp only [List.mem_append, List.mem_singleton, reduceCtorEq, or_false] at hmem
    exact (hfetched h hmem).elim

/-- A rate that was answered with comes from a fetch for the pair, or from an
entry that was fresh when it was read. -/
theorem Progress.source {events : List RateEvent} {p : RateProc (Option RateResult)}
    (h : Progress mapping ttlMs i base target events p) {result : RateResult}
    (hp : p = .done (.ok (some result))) :
    (result.base = base ∧ result.target = target) ∧
      ((.answered i result.provider base target (some result.rate) result.fetchedAt ∈ events ∧
          result.rate ≠ 0) ∨
        ∃ now : Time, .found i (cacheKey mapping base target) now
            (some ⟨result.rate, result.provider, result.fetchedAt⟩) ∈ events ∧
          (now : ℚ) - result.fetchedAt < ttlMs) := by
  cases h with
  | hit hfresh =>
    cases hp
    exact ⟨⟨rfl, rfl⟩, Or.inr ⟨_, List.mem_cons_self, hfresh⟩⟩
  | stored hfetched =>
    cases hp
    obtain ⟨hmem, hne⟩ := hfetched.answered
    exact ⟨⟨rfl, rfl⟩, Or.inl ⟨List.mem_append_left _ hmem, hne⟩⟩
  | fetched hfetched => cases hp
  | failed _ _ _ => cases hp
  | begun =>
    obtain ⟨next, heq, -⟩ := prog_next mapping ttlMs i base target
    rw [heq] at hp
    cases hp
  | missed _ =>
    obtain ⟨next, heq, -⟩ := fetching_next mapping i base target
    rw [heq] at hp
    cases hp
  | fallback _ _ =>
    obtain ⟨next, heq, -⟩ := fallingBack_next mapping i base target
    rw [heq] at hp
    cases hp

theorem cacheKey_inj {b t : Code} (h : cacheKey mapping b t = cacheKey mapping base target) :
    pair mapping b t = pair mapping base target :=
  key_injective h

/-- What `getRate` promises of a result. -/
structure Answers (mapping : CaseMapping) (ttlMs : ℚ) (log : List RateEvent) (i : ℕ)
    (base target : Code) (result : RateResult) : Prop where
  asked : result.base = base ∧ result.target = target
  /-- A provider gave this rate for the pair, to this call or less than `ttlMs`
  before it read the cache, and the first one if that gave any. -/
  source : ∃ call b t,
    .answered call result.provider b t (some result.rate) result.fetchedAt ∈ log ∧
      pair mapping b t = pair mapping base target ∧ result.rate ≠ 0 ∧
      (call = i ∨ ∃ now : Time, .found i (cacheKey mapping base target) now
          (some ⟨result.rate, result.provider, result.fetchedAt⟩) ∈ log ∧
        result.fetchedAt ≤ now ∧ (now : ℚ) - result.fetchedAt < ttlMs) ∧
      ∀ b' t' rate now, .answered call .openexchangerates b' t' (some rate) now ∈ log → rate ≠ 0 →
        result.provider = .openexchangerates ∧ result.rate = rate

/-- **A call answers with a fresh rate of the pair, the first provider's if there
is one; it throws and stores nothing when both fail, and asks nobody when it
finds a fresh entry.** -/
theorem getRate_correct {net : ℕ → Except RateError (Option Rates)} {now : Time} {cfg : RatePool}
    (h : Reach (server mapping ttlMs) .free (start net now) cfg)
    {th : Thread RateCall RateCmd RateCmd.Reply RateError (Option RateResult)}
    (hth : cfg.thread i = some th) (hcall : th.call = .getRate base target) :
    (∀ result, th.proc = .done (.ok (some result)) →
      Answers mapping ttlMs cfg.state.log i base target result) ∧
    (∀ b t rate now b' t' rate' now',
      .answered i .openexchangerates b t rate now ∈ cfg.state.log → ¬ Usable rate →
      .answered i .exchangeratehost b' t' rate' now' ∈ cfg.state.log → ¬ Usable rate' →
      th.proc = .done (.error unavailable) ∧ ∀ key entry, .stored i key entry ∉ cfg.state.log) ∧
    (∀ key now entry, .found i key now (some entry) ∈ cfg.state.log → fresh ttlMs now entry →
      th.proc = .done (.ok (some (cachedResult base target now entry))) ∧
        ∀ provider b t rate now, .answered i provider b t rate now ∉ cfg.state.log) ∧
    cfg.state.cache = replay cfg.state.log := by
  have hinv := inv_of_reach h
  have hown := hinv.proceeds i th hth
  rw [hcall] at hown
  have hprogress : Progress mapping ttlMs i base target (own i cfg.state.log) th.proc := hown
  have hfirst (call : ℕ) : FirstWins call (own call cfg.state.log) := by
    cases hth' : cfg.thread call with
    | none =>
      rw [hinv.fresh call hth']
      intro provider b t rate now b' t' rate' now' hmem
      nomatch hmem
    | some th' =>
      have hown' := hinv.proceeds call th' hth'
      cases hcall' : th'.call with
      | getRate base' target' =>
        rw [hcall'] at hown'
        exact Progress.firstWins hown'
      | tick ms =>
        rw [hcall'] at hown'
        rw [hown'.1]
        intro provider b t rate now b' t' rate' now' hmem
        nomatch hmem
  have hwins {call : ℕ} {provider : Provider} {b t : Code} {rate : ℚ} {at' : Time}
      (hmem : .answered call provider b t (some rate) at' ∈ cfg.state.log) (hne : rate ≠ 0) :
      ∀ b' t' rate' now', .answered call .openexchangerates b' t' (some rate') now' ∈ cfg.state.log →
        rate' ≠ 0 → provider = .openexchangerates ∧ rate = rate' :=
    fun b' t' rate' now' hmem' hne' => hfirst call _ _ _ _ _ _ _ _ _ (mem_own hmem rfl) hne
      (mem_own hmem' rfl) hne'
  refine ⟨fun result hresult => ?_, ?_, ?_, hinv.replayed⟩
  · obtain ⟨hasked, ⟨hmem, hne⟩ | ⟨now', hfound, hage⟩⟩ := hprogress.source hresult
    · have hlog := (List.mem_filter.mp hmem).1
      exact ⟨hasked, i, base, target, hlog, rfl, hne, Or.inl rfl, hwins hlog hne⟩
    · have hlog := (List.mem_filter.mp hfound).1
      obtain ⟨call, b, t, hmem, hkey, hne, hle⟩ := hinv.found _ _ _ _ hlog
      exact ⟨hasked, call, b, t, hmem, cacheKey_inj hkey, hne,
        Or.inr ⟨now', hlog, hle, hage⟩, hwins hmem hne⟩
  · intro b t rate now b' t' rate' now' hmem _ hmem' hunusable'
    obtain ⟨hproc, hnone⟩ := hprogress.failed_of (mem_own hmem rfl) (mem_own hmem' rfl) hunusable'
    exact ⟨hproc, fun key entry hstored => hnone key entry (mem_own hstored rfl)⟩
  · intro key now entry hmem hfresh
    obtain ⟨hproc, hnone⟩ := hprogress.hit_of (mem_own hmem rfl) hfresh
    exact ⟨hproc, fun provider b t rate now hmem => hnone provider b t rate now (mem_own hmem rfl)⟩

/-- Every provider has `USD` and `EURUSD` at 11/10. -/
def steadyNet : ℕ → Except RateError (Option Rates) := fun _ =>
  .ok (some fun key => if key = "USD" || key = "EURUSD" then some (11 / 10) else none)

/-- A call fetches, and five milliseconds later another one finds the rate. -/
def twoCalls : List (Event RateCall RateError) :=
  [.call 0 (.getRate eur usdLower), .step 0 none, .step 0 none, .step 0 none, .call 1 (.tick 5),
    .step 1 none, .call 2 (.getRate eur usdLower), .step 2 none]

theorem getRate_correct_cached : ∃ cfg th result,
    Reach (server .ascii 60000) .free (start steadyNet 0) cfg ∧ cfg.thread 2 = some th ∧
      th.proc = .done (.ok (some result)) ∧ result.rate = 11 / 10 ∧ result.ageMs = 5 ∧
      Answers .ascii 60000 cfg.state.log 2 eur usdLower result := by
  have hrun : ((((server .ascii 60000).play (start steadyNet 0) twoCalls).thread 2).bind fun th =>
      th.proc.returned.bind fun result => result.map fun result =>
        (th.call, result.rate, result.ageMs)) = some (.getRate eur usdLower, 11 / 10, 5) := by
    decide +kernel
  obtain ⟨th, hth, hreturned⟩ := Option.bind_eq_some_iff.mp hrun
  obtain ⟨returned, hreturned, hsome⟩ := Option.bind_eq_some_iff.mp hreturned
  obtain ⟨result, rfl, hresult⟩ := Option.map_eq_some_iff.mp hsome
  have hproc : th.proc = .done (.ok (some result)) := by
    unfold Proc.returned at hreturned
    split at hreturned
    · rename_i heq
      rw [heq, Option.some.inj hreturned]
    · cases hreturned
  have hreach : Reach (server .ascii 60000) .free (start steadyNet 0)
      ((server .ascii 60000).play (start steadyNet 0) twoCalls) := Reach.refl.play twoCalls
  exact ⟨_, th, result, hreach, hth, hproc, congrArg (fun r => r.2.1) hresult,
    congrArg (fun r => r.2.2) hresult,
    (getRate_correct hreach hth (congrArg (fun r => r.1) hresult)).1 result hproc⟩

end ExchangeRate

end NexaFx
