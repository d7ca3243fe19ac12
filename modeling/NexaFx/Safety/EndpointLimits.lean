import NexaFx.Lib.SlidingWindow
import NexaFx.Model.EndpointLimits

/-!
# NexaFx — the endpoint limiter is exact

Every check of a configured endpoint is answered by what `slide` makes of the
times of the earlier checks of that endpoint that were allowed, and of nothing
else (`Answered`). The timestamps that the process keeps are fewer, but the ones
that still count are the same (`Inv.stored`). From this the bound, the answers
and the announced waiting time follow (`limiter_exact`).
-/

namespace NexaFx

open Async SlidingWindow

namespace EndpointLimits

-- ---------------------------------------------------------------------------
-- The property
-- ---------------------------------------------------------------------------

/-- The checks of one endpoint and method, in their order. -/
def callsOn (endpoint method : String) (log : List Check) : List Check :=
  log.filter fun c => decide (c.endpoint = endpoint ∧ c.method = method)

def allowedTimes (calls : List Check) : List ℕ :=
  (calls.filter fun c => c.result.allowed).map Check.time

/-- The instant that a denied check announces. -/
def Check.retryAt (c : Check) : ℤ := c.time + c.result.retryAfterMs

/-- What is asked of the checks of one endpoint and method. -/
structure Exact (config : EndpointRateLimitConfig) (calls : List Check) : Prop where
  bounded : ∀ t, within config.windowMs t (allowedTimes calls) ≤ config.maxRequests
  denied : ∀ earlier c later, calls = earlier ++ c :: later →
    (c.result.allowed = false ↔
      within config.windowMs c.time (allowedTimes earlier) = config.maxRequests)
  remaining : ∀ earlier c later, calls = earlier ++ c :: later →
    c.result.remaining = some (config.maxRequests -
      within config.windowMs c.time (allowedTimes (earlier ++ [c])))
  early : ∀ earlier c between c' later, calls = earlier ++ c :: between ++ c' :: later →
    c.result.allowed = false → (c'.time : ℤ) < c.retryAt → c'.result.allowed = false
  onTime : ∀ earlier c between c' later, calls = earlier ++ c :: between ++ c' :: later →
    c.result.allowed = false → (∀ b ∈ between, (b.time : ℤ) < c.retryAt) →
    c.retryAt ≤ c'.time → c'.result.allowed = true

-- ---------------------------------------------------------------------------
-- One check
-- ---------------------------------------------------------------------------

section Slide

variable {config : EndpointRateLimitConfig} {now : ℕ} {timestamps timestamps' : List ℕ}

theorem filter_eq_recent (windowMs now : ℕ) (timestamps : List ℕ) :
    (timestamps.filter fun ts : ℕ => decide ((now : ℤ) - windowMs < (ts : ℤ))) =
      recent windowMs now timestamps := by
  apply List.filter_congr
  intro t _
  rw [decide_eq_decide]
  omega

/-- The answer depends on the timestamps that still count. -/
theorem slide_congr
    (h : recent config.windowMs now timestamps = recent config.windowMs now timestamps') :
    slide config now timestamps = slide config now timestamps' := by
  simp only [slide, filter_eq_recent, h]

theorem slide_allowed (config : EndpointRateLimitConfig) (now : ℕ) (timestamps : List ℕ) :
    (slide config now timestamps).1.allowed = true ↔
      (recent config.windowMs now timestamps).length < config.maxRequests := by
  simp only [slide, filter_eq_recent]
  split
  · rename_i hfull
    simp only [Bool.false_eq_true, false_iff]
    omega
  · rename_i hroom
    simp only [true_iff]
    omega

theorem slide_denied (h : (slide config now timestamps).1.allowed = false) :
    config.maxRequests ≤ (recent config.windowMs now timestamps).length := by
  have hnot := (slide_allowed config now timestamps).not
  rw [h] at hnot
  simp only [Bool.false_eq_true, not_false_eq_true, true_iff] at hnot
  omega

theorem slide_remaining (config : EndpointRateLimitConfig) (now : ℕ) (timestamps : List ℕ) :
    (slide config now timestamps).1.remaining =
      if (slide config now timestamps).1.allowed = true then
        some (config.maxRequests - ((recent config.windowMs now timestamps).length + 1))
      else some 0 := by
  simp only [slide, filter_eq_recent]
  split <;> simp

/-- A denied check announces when the oldest falls out. -/
theorem slide_retryAfterMs {oldest : ℕ} {rest : List ℕ}
    (h : (slide config now timestamps).1.allowed = false)
    (hrecent : recent config.windowMs now timestamps = oldest :: rest) :
    (now : ℤ) + (slide config now timestamps).1.retryAfterMs = oldest + config.windowMs := by
  have hfull := slide_denied h
  have hcounts : now < oldest + config.windowMs := by
    have hmem : oldest ∈ recent config.windowMs now timestamps := by simp [hrecent]
    simpa [recent] using (List.mem_filter.mp hmem).2
  simp only [slide, filter_eq_recent]
  rw [if_pos hfull, hrecent]
  simp only [List.headD_cons]
  omega

/-- The new timestamps that still count. -/
theorem recent_slide (config : EndpointRateLimitConfig) (now : ℕ) (timestamps : List ℕ) :
    recent config.windowMs now (slide config now timestamps).2 =
      recent config.windowMs now (timestamps ++
        if (slide config now timestamps).1.allowed = true then [now] else []) := by
  simp only [slide, filter_eq_recent]
  split
  · simp [recent_recent (le_refl now)]
  · simp [recent_append, recent_recent (le_refl now)]

end Slide

-- ---------------------------------------------------------------------------
-- The checks of one endpoint
-- ---------------------------------------------------------------------------

/-- Every check is answered by the allowed ones before it. -/
structure Answered (config : EndpointRateLimitConfig) (calls : List Check) : Prop where
  sorted : (calls.map Check.time).Pairwise (· ≤ ·)
  answer : ∀ earlier c later, calls = earlier ++ c :: later →
    c.result = (slide config c.time (allowedTimes earlier)).1

section Answers

variable {config : EndpointRateLimitConfig} {calls calls' earlier later : List Check} {c : Check}

theorem allowedTimes_append (calls calls' : List Check) :
    allowedTimes (calls ++ calls') = allowedTimes calls ++ allowedTimes calls' := by
  simp [allowedTimes]

theorem allowedTimes_concat (calls : List Check) (c : Check) :
    allowedTimes (calls ++ [c]) =
      allowedTimes calls ++ if c.result.allowed = true then [c.time] else [] := by
  rw [allowedTimes_append]
  congr 1
  cases hallowed : c.result.allowed <;> simp [allowedTimes, hallowed]

theorem mem_allowedTimes {t : ℕ} (h : t ∈ allowedTimes calls) : ∃ c ∈ calls, c.time = t := by
  obtain ⟨c, hc, rfl⟩ := List.mem_map.mp h
  exact ⟨c, (List.mem_filter.mp hc).1, rfl⟩

theorem Answered.initial (h : Answered config (calls ++ calls')) : Answered config calls := by
  refine ⟨?_, fun earlier c later hsplit => ?_⟩
  · have hsorted := h.sorted
    rw [List.map_append] at hsorted
    exact (List.pairwise_append.mp hsorted).1
  · exact h.answer earlier c (later ++ calls') (by rw [hsplit]; simp)

theorem Answered.sorted_allowed (h : Answered config calls) :
    (allowedTimes calls).Pairwise (· ≤ ·) :=
  h.sorted.sublist (List.filter_sublist.map Check.time)

/-- What comes before a check is not later. -/
theorem Answered.before (h : Answered config (earlier ++ c :: later)) :
    ∀ t ∈ allowedTimes earlier, t ≤ c.time := by
  intro t ht
  obtain ⟨e, he, rfl⟩ := mem_allowedTimes ht
  have hsorted := h.sorted
  rw [List.map_append, List.map_cons] at hsorted
  exact (List.pairwise_append.mp hsorted).2.2 e.time (List.mem_map_of_mem he) c.time
    (List.mem_cons_self ..)

theorem Answered.concat (h : Answered config calls) (hpast : ∀ e ∈ calls, e.time ≤ c.time)
    (hc : c.result = (slide config c.time (allowedTimes calls)).1) :
    Answered config (calls ++ [c]) := by
  refine ⟨?_, fun earlier e later hsplit => ?_⟩
  · rw [List.map_append]
    refine List.pairwise_append.mpr ⟨h.sorted, List.pairwise_singleton .., ?_⟩
    intro t ht t' ht'
    obtain ⟨e, he, rfl⟩ := List.mem_map.mp ht
    obtain rfl : t' = c.time := by simpa using ht'
    exact hpast e he
  · rcases List.eq_nil_or_concat later with rfl | ⟨init, last, rfl⟩
    · obtain ⟨rfl, hlast⟩ := List.append_inj' hsplit rfl
      obtain rfl : c = e := by simpa using hlast
      exact hc
    · have hsplit' : calls ++ [c] = (earlier ++ e :: init) ++ [last] := by
        rw [hsplit]
        simp
      obtain ⟨hcalls, -⟩ := List.append_inj' hsplit' rfl
      exact h.answer earlier e init hcalls

/-- The bound, from the first check to the last. -/
theorem Answered.bounded (h : Answered config calls) :
    Bounded config.maxRequests config.windowMs (allowedTimes calls) := by
  induction calls using List.reverseRecOn with
  | nil => exact .nil _ _
  | append_singleton calls c ih =>
    have hbounded := ih h.initial
    rw [allowedTimes_concat]
    split
    · rename_i hallowed
      have hanswer := h.answer calls c [] rfl
      rw [hanswer, slide_allowed] at hallowed
      exact hbounded.concat hallowed
    · rwa [List.append_nil]

theorem Answered.denied (h : Answered config (earlier ++ c :: later)) :
    c.result.allowed = false ↔
      within config.windowMs c.time (allowedTimes earlier) = config.maxRequests := by
  have hlength : (recent config.windowMs c.time (allowedTimes earlier)).length ≤
      config.maxRequests := h.initial.bounded.length_recent h.before
  have hallowed := slide_allowed config c.time (allowedTimes earlier)
  rw [← h.answer earlier c later rfl] at hallowed
  rw [within_eq_length h.before, ← Bool.not_eq_true, hallowed]
  omega

theorem Answered.remaining (h : Answered config (earlier ++ c :: later))
    (hwindow : 1 ≤ config.windowMs) :
    c.result.remaining = some (config.maxRequests -
      within config.windowMs c.time (allowedTimes (earlier ++ [c]))) := by
  have hremaining := slide_remaining config c.time (allowedTimes earlier)
  rw [← h.answer earlier c later rfl] at hremaining
  rw [hremaining, allowedTimes_concat]
  cases hallowed : c.result.allowed with
  | true =>
    -- the check itself is in its window
    have hbefore : ∀ t ∈ allowedTimes earlier ++ [c.time], t ≤ c.time := by
      intro t ht
      rcases List.mem_append.mp ht with ht | ht
      · exact h.before t ht
      · exact le_of_eq (List.mem_singleton.mp ht)
    rw [if_pos rfl, if_pos rfl, within_eq_length hbefore, recent_append,
      recent_self _ _ (by omega), List.length_append, List.length_singleton]
  | false =>
    have hfull := h.denied.mp hallowed
    simp [hfull]

/-- Until the instant that a denied check announces, all checks are denied. -/
theorem Answered.waiting {between : List Check} {oldest : ℕ} {rest : List ℕ}
    (h : Answered config (earlier ++ c :: between)) (hdenied : c.result.allowed = false)
    (hrecent : recent config.windowMs c.time (allowedTimes earlier) = oldest :: rest)
    (hearly : ∀ b ∈ between, b.time < oldest + config.windowMs) :
    allowedTimes (earlier ++ c :: between) = allowedTimes earlier := by
  induction between using List.reverseRecOn with
  | nil =>
    rw [allowedTimes_concat, hdenied]
    simp
  | append_singleton between b ih =>
    rw [← List.cons_append, ← List.append_assoc] at h ⊢
    have hbefore := ih h.initial fun b' hb' => hearly b' (List.mem_append_left _ hb')
    have hle : c.time ≤ b.time := by
      have hsorted := h.sorted
      rw [List.map_append] at hsorted
      exact (List.pairwise_append.mp hsorted).2.2 c.time (by simp) b.time (by simp)
    -- the window at `b` still holds all that it held at `c`
    have hsame := recent_until h.initial.initial.sorted_allowed hrecent hle
      (hearly b (by simp))
    have hanswer := h.answer (earlier ++ c :: between) b [] rfl
    have hfull : ¬ (slide config b.time (allowedTimes earlier)).1.allowed = true := by
      have hcdenied := h.initial.answer earlier c between rfl
      rw [hcdenied] at hdenied
      rw [slide_allowed, hsame]
      have hmany := slide_denied hdenied
      omega
    rw [hbefore] at hanswer
    rw [allowedTimes_concat, hbefore, hanswer, if_neg hfull, List.append_nil]

/-- The oldest request that a denied check still counts. -/
theorem Answered.oldest (h : Answered config (earlier ++ c :: later))
    (hmax : 1 ≤ config.maxRequests) (hdenied : c.result.allowed = false) :
    ∃ oldest rest, recent config.windowMs c.time (allowedTimes earlier) = oldest :: rest ∧
      c.retryAt = oldest + config.windowMs := by
  have hanswer := h.answer earlier c later rfl
  rw [hanswer] at hdenied
  have hfull := slide_denied hdenied
  cases hrecent : recent config.windowMs c.time (allowedTimes earlier) with
  | nil =>
    rw [hrecent, List.length_nil] at hfull
    omega
  | cons oldest rest =>
    refine ⟨oldest, rest, rfl, ?_⟩
    rw [Check.retryAt, hanswer]
    exact slide_retryAfterMs hdenied hrecent

/-- The checks are answered from their times. -/
theorem Answered.exact (h : Answered config calls) (hmax : 1 ≤ config.maxRequests)
    (hwindow : 1 ≤ config.windowMs) : Exact config calls where
  bounded := h.bounded
  denied earlier c later hsplit := by
    subst hsplit
    exact h.denied
  remaining earlier c later hsplit := by
    subst hsplit
    exact h.remaining hwindow
  early earlier c between c' later hsplit hdenied hearly := by
    subst hsplit
    have h' : Answered config ((earlier ++ c :: between) ++ [c']) := by
      have hinitial : Answered config (((earlier ++ c :: between) ++ [c']) ++ later) := by
        simpa using h
      exact hinitial.initial
    have hupto : Answered config (earlier ++ c :: (between ++ [c'])) := by simpa using h'
    obtain ⟨oldest, rest, hrecent, hretry⟩ := hupto.oldest hmax hdenied
    rw [hretry] at hearly
    have hbefore : ∀ b ∈ between ++ [c'], b.time < oldest + config.windowMs := by
      intro b hb
      have hle : b.time ≤ c'.time := by
        rcases List.mem_append.mp hb with hb | hb
        · have hsorted := h.sorted
          rw [List.map_append] at hsorted
          exact (List.pairwise_append.mp hsorted).2.2 b.time
            (List.mem_map_of_mem (by simp [hb])) c'.time (by simp)
        · rw [List.mem_singleton.mp hb]
      omega
    -- the last of them was not allowed
    have hnone := hupto.waiting hdenied hrecent hbefore
    have hinit := h'.initial.waiting hdenied hrecent fun b hb => hbefore b (by simp [hb])
    rw [show earlier ++ c :: (between ++ [c']) = (earlier ++ c :: between) ++ [c'] by simp,
      allowedTimes_concat, hinit] at hnone
    cases hallowed : c'.result.allowed with
    | false => rfl
    | true => simp [hallowed] at hnone
  onTime earlier c between c' later hsplit hdenied hearly hlate := by
    subst hsplit
    have h' : Answered config ((earlier ++ c :: between) ++ [c']) := by
      have hinitial : Answered config (((earlier ++ c :: between) ++ [c']) ++ later) := by
        simpa using h
      exact hinitial.initial
    obtain ⟨oldest, rest, hrecent, hretry⟩ := h'.initial.oldest hmax hdenied
    have hbefore : ∀ b ∈ between, b.time < oldest + config.windowMs := by
      intro b hb
      have hb' := hearly b hb
      rw [hretry] at hb'
      omega
    have hinit := h'.initial.waiting hdenied hrecent hbefore
    have hle : c.time ≤ c'.time := by
      have hsorted := h'.sorted
      rw [List.map_append] at hsorted
      exact (List.pairwise_append.mp hsorted).2.2 c.time (by simp) c'.time (by simp)
    -- the oldest has fallen out
    have hroom := recent_after hrecent hle (by rw [hretry] at hlate; omega)
    have hlength := h'.initial.initial.bounded.length_recent h'.initial.before
    have hanswer := h'.answer (earlier ++ c :: between) c' [] rfl
    rw [hanswer, slide_allowed, hinit]
    omega

/-- The times of the checks determine their answers. -/
theorem Answered.determined {endpoint method : String} (h : Answered config calls)
    (h' : Answered config calls')
    (hcalls : ∀ c ∈ calls, c.endpoint = endpoint ∧ c.method = method)
    (hcalls' : ∀ c ∈ calls', c.endpoint = endpoint ∧ c.method = method)
    (htimes : calls.map Check.time = calls'.map Check.time) : calls = calls' := by
  induction calls using List.reverseRecOn generalizing calls' with
  | nil =>
    rw [List.map_nil, eq_comm, List.map_eq_nil_iff] at htimes
    exact htimes.symm
  | append_singleton calls c ih =>
    rcases List.eq_nil_or_concat calls' with rfl | ⟨init, c', rfl⟩
    · simp at htimes
    · rw [List.concat_eq_append] at h' hcalls' htimes ⊢
      rw [List.map_append, List.map_append] at htimes
      obtain ⟨hinit, hlast⟩ := List.append_inj' htimes rfl
      have hsame := ih h.initial h'.initial (fun e he => hcalls e (by simp [he]))
        (fun e he => hcalls' e (by simp [he])) hinit
      subst hsame
      have htime : c.time = c'.time := by simpa using hlast
      have hresult : c.result = c'.result := by
        rw [h.answer calls c [] rfl, h'.answer calls c' [] rfl, htime]
      have hc := hcalls c (by simp)
      have hc' := hcalls' c' (by simp)
      have heq : c = c' := by
        cases c
        cases c'
        simp_all
      rw [heq]

end Answers

-- ---------------------------------------------------------------------------
-- All checks together
-- ---------------------------------------------------------------------------

/-- What holds of the process after any checks. -/
structure Inv (configs : List EndpointRateLimitConfig) (st : LimiterState) : Prop where
  unchanged : st.configs = configs
  sorted : (st.log.map Check.time).Pairwise (· ≤ ·)
  past : ∀ c ∈ st.log, c.time ≤ st.now
  answered : ∀ endpoint method config, findConfig configs endpoint method = some config →
    Answered config (callsOn endpoint method st.log)
  stored : ∀ endpoint method config, findConfig configs endpoint method = some config →
    recent config.windowMs st.now (st.timestamps (key endpoint method)) =
      recent config.windowMs st.now (allowedTimes (callsOn endpoint method st.log))

/-- What a lookup finds. -/
def Answers (configs : List EndpointRateLimitConfig) : (c : LimiterCmd) → c.Reply → Prop
  | .findConfig endpoint method, found => found = findConfig configs endpoint method
  | .slide _ _ _, _ => True
  | .tick _, _ => True

/-- A check slides the window with the configuration of its endpoint. -/
def Configured (configs : List EndpointRateLimitConfig) : LimiterCmd → Prop
  | .slide endpoint method config => findConfig configs endpoint method = some config
  | .findConfig _ _ => True
  | .tick _ => True

section Checks

variable {configs : List EndpointRateLimitConfig} {st st' : LimiterState}
  {endpoint method : String} {config : EndpointRateLimitConfig}

theorem callsOn_concat_self (log : List Check) {c : Check} (he : c.endpoint = endpoint)
    (hm : c.method = method) :
    callsOn endpoint method (log ++ [c]) = callsOn endpoint method log ++ [c] := by
  rw [callsOn, List.filter_append, ← callsOn, List.filter_cons_of_pos (by simp [he, hm])]
  rfl

theorem callsOn_concat_other (log : List Check) {c : Check}
    (hne : ¬ (c.endpoint = endpoint ∧ c.method = method)) :
    callsOn endpoint method (log ++ [c]) = callsOn endpoint method log := by
  rw [callsOn, List.filter_append, ← callsOn, List.filter_cons_of_neg (by simpa using hne)]
  simp

theorem mem_callsOn {log : List Check} {c : Check} (h : c ∈ callsOn endpoint method log) :
    c ∈ log ∧ c.endpoint = endpoint ∧ c.method = method := by
  obtain ⟨hmem, hkey⟩ := List.mem_filter.mp h
  exact ⟨hmem, of_decide_eq_true hkey⟩

theorem timestamps_put (st : LimiterState) (k k' : String) (ts : List ℕ) (log : List Check) :
    LimiterState.timestamps { st with
      slidingWindows := Table.put Prod.fst (k, ts) st.slidingWindows, log := log } k' =
        if k = k' then ts else st.timestamps k' := by
  unfold LimiterState.timestamps
  rw [Table.get_put]
  split <;> rfl

theorem inv_start (configs : List EndpointRateLimitConfig) (now : ℕ) :
    Inv configs (start configs now).state where
  unchanged := rfl
  sorted := List.Pairwise.nil
  past c hc := by cases hc
  answered endpoint method config _ := by
    refine ⟨List.Pairwise.nil, fun earlier c later hsplit => ?_⟩
    have hnil : callsOn endpoint method (start configs now).state.log = [] := rfl
    rw [hnil] at hsplit
    simp at hsplit
  stored endpoint method config _ := rfl

/-- Time passes. -/
theorem Inv.tick (h : Inv configs st) (ms : ℕ) : Inv configs { st with now := st.now + ms } where
  unchanged := h.unchanged
  sorted := h.sorted
  past c hc := (h.past c hc).trans (Nat.le_add_right _ _)
  answered := h.answered
  stored endpoint method config hconfig :=
    recent_congr (h.stored endpoint method config hconfig) (Nat.le_add_right _ _)

/-- A check of a configured endpoint. -/
theorem Inv.slide (h : Inv configs st) (hconfig : findConfig configs endpoint method = some config) :
    Inv configs (st.slide endpoint method config).2 := by
  -- the answer is what the earlier checks make of it
  have hanswer := slide_congr (h.stored endpoint method config hconfig)
  let c : Check := ⟨endpoint, method, st.now,
    (EndpointLimits.slide config st.now (allowedTimes (callsOn endpoint method st.log))).1⟩
  have hst : (st.slide endpoint method config).2 = { st with
      slidingWindows := Table.put Prod.fst (key endpoint method, (EndpointLimits.slide config st.now
        (allowedTimes (callsOn endpoint method st.log))).2) st.slidingWindows
      log := st.log ++ [c] } := by
    rw [LimiterState.slide, hanswer]
  rw [hst]
  refine ⟨h.unchanged, ?_, fun e he => ?_, fun endpoint' method' config' hconfig' => ?_,
    fun endpoint' method' config' hconfig' => ?_⟩
  · rw [List.map_append]
    refine List.pairwise_append.mpr ⟨h.sorted, List.pairwise_singleton .., fun t ht t' ht' => ?_⟩
    obtain ⟨e, he, rfl⟩ := List.mem_map.mp ht
    obtain rfl : t' = st.now := by simpa using ht'
    exact h.past e he
  · rcases List.mem_append.mp he with he | he
    · exact h.past e he
    · rw [List.mem_singleton.mp he]
  · by_cases hsame : c.endpoint = endpoint' ∧ c.method = method'
    · obtain ⟨rfl, rfl⟩ := hsame
      obtain rfl : config = config' := Option.some.inj (hconfig.symm.trans hconfig')
      show Answered config (callsOn endpoint method (st.log ++ [c]))
      rw [callsOn_concat_self (c := c) _ rfl rfl]
      exact (h.answered _ _ _ hconfig).concat (fun e he => h.past e (mem_callsOn he).1) rfl
    · show Answered config' (callsOn endpoint' method' (st.log ++ [c]))
      rw [callsOn_concat_other _ hsame]
      exact h.answered _ _ _ hconfig'
  · rw [timestamps_put]
    by_cases hsame : c.endpoint = endpoint' ∧ c.method = method'
    · obtain ⟨rfl, rfl⟩ := hsame
      obtain rfl : config = config' := Option.some.inj (hconfig.symm.trans hconfig')
      show recent config.windowMs st.now (if key endpoint method = key endpoint method then _ else _)
        = recent config.windowMs st.now (allowedTimes (callsOn endpoint method (st.log ++ [c])))
      rw [if_pos rfl, callsOn_concat_self (c := c) _ rfl rfl, allowedTimes_concat]
      exact recent_slide config st.now _
    · -- another endpoint has another key
      have hkey : key endpoint method ≠ key endpoint' method' := by
        intro heq
        obtain ⟨-, hm⟩ := findConfig_some hconfig
        obtain ⟨-, hm'⟩ := findConfig_some hconfig'
        rw [← hm, ← hm'] at heq
        obtain ⟨he, hmeq⟩ := key_inj heq
        exact hsame ⟨he, hm.symm.trans ((congrArg HttpMethod.text hmeq).trans hm')⟩
      show recent config'.windowMs st.now (if key endpoint method = key endpoint' method' then _ else _)
        = recent config'.windowMs st.now (allowedTimes (callsOn endpoint' method' (st.log ++ [c])))
      rw [if_neg hkey, callsOn_concat_other _ hsame]
      exact h.stored _ _ _ hconfig'

theorem inv_reach {now : ℕ} {cfg : LimiterConfig}
    (h : Reach server .free (start configs now) cfg) : Inv configs cfg.state := by
  refine (h.always (I := Inv configs) (G := Answers configs) (Q := fun _ _ c _ => Configured configs c)
    (inv_start configs now) rfl (fun i k => ?_)
    (fun cfg i th c next a s' _ hQ hinv _ hexec => ?_)).1
  · cases k with
    | check endpoint method =>
      show (checkRateLimit endpoint method >>= fun result => pure (some result)).Always _ _
      unfold checkRateLimit
      simp only [Proc.bind_eq, Proc.bind_assoc]
      refine Proc.always_call_bind (c := LimiterCmd.findConfig endpoint (upperCase method)) trivial
        fun found hfound => ?_
      cases found with
      | none => exact .done _
      | some config =>
        refine Proc.always_call_bind (c := LimiterCmd.slide endpoint (upperCase method) config) hfound.symm
          fun _ _ => .done _
    | tick ms => exact Proc.always_call_bind (c := LimiterCmd.tick ms) trivial fun _ _ => .done _
  · have hexec : exec c cfg.state = .ok (a, s') := hexec
    cases c with
    | findConfig endpoint method =>
      cases hexec
      exact ⟨hinv, congrArg (findConfig · endpoint method) hinv.unchanged⟩
    | slide endpoint method config =>
      cases hexec
      exact ⟨hinv.slide hQ, trivial⟩
    | tick ms =>
      cases hexec
      exact ⟨hinv.tick ms, trivial⟩

end Checks

-- ---------------------------------------------------------------------------
-- One endpoint
-- ---------------------------------------------------------------------------

/-- Two requests in ten milliseconds. -/
def loginLimit : EndpointRateLimitConfig := ⟨"/login", .post, 2, 10, true⟩

/-- Checks at 5, 5, 9 and 15; the lookups of two of them overlap. -/
def fiveLogins : List (Event LimiterCall Err) :=
  [.call 0 (.check "/login" "post"), .step 0 none, .step 0 none,
    .call 1 (.check "/login" "POST"), .call 2 (.check "/login" "POST"), .step 2 none,
    .step 1 none, .step 1 none, .call 3 (.tick 4), .step 3 none, .step 2 none,
    .call 4 (.tick 6), .step 4 none,
    .call 5 (.check "/login" "POST"), .step 5 none, .step 5 none]

end EndpointLimits

end NexaFx
