import NexaFx.Model.RateListing

/-!
# NexaFx — when the listing of exchange rates is complete

A refresh saves the pairs one by one, and readers take any entries that have
not expired for the whole listing. `orderly` keeps the two apart: refreshes do
not overlap, the listing is not read under one, and none fails after its first
save. Then the table is `Settled` whenever no refresh is under way: it is
empty, or it has one entry of every pair and these expire together.

* `Stage` — how far a call has come, with what a refresh has saved.
* `Inv` — the invariant of orderly runs.

Main result: `listing_complete`.
-/

namespace NexaFx

open Async

namespace RateListing

variable {choice : Choice} {cacheTtlSeconds : ℕ} {fetchRateFromSource : ℕ → String → ℚ}

/-! ## Orderly runs -/

/-- Commands that only a refresh that has begun comes to. -/
def ofRefresh : ListingCmd → Bool
  | .findPair .. | .save .. | .insert .. | .saveHistory .. => true
  | _ => false

/-- The call is in the middle of a refresh. -/
def refreshing : ListingProc Answer → Bool
  | .await c _ => ofRefresh c
  | .done _ => false

def noRefresh (cfg : ListingPool) : Bool := cfg.threads.all fun th => !refreshing th.proc

/-- No entry that is read has expired by the time it is answered with. -/
def stillValid (cfg : ListingPool) (since : Time) : Bool :=
  cfg.state.rows.all fun row => since < row.expiresAt → cfg.state.now < row.expiresAt

def orderlyStep (cfg : ListingPool) (_ : ListingThread) (c : ListingCmd) (failed : Bool) : Bool :=
  match c with
  | .beginRefresh => noRefresh cfg
  | .find since => failed || (noRefresh cfg && stillValid cfg since)
  | .findOne _ since => failed || stillValid cfg since
  | .findPair saved _ | .save saved _ | .insert saved .. => failed → saved = 0
  | .saveHistory saved _ expiresAt =>
    !failed && decide (saved = SUPPORTED_PAIRS.length → cfg.state.now < expiresAt)
  | _ => true

/-- Refreshes do not overlap, the listing is not read under one, none fails once
it has saved an entry, and nothing that is answered with expires meanwhile. -/
def orderly : Discipline ListingCall ListingCmd ListingCmd.Reply Thrown ListingDb Answer where
  onCall _ _ _ := True
  onStep cfg th c failed := orderlyStep cfg th c failed = true

/-! ## The table -/

abbrev Rows := List ExchangeRateCacheEntity

/-- Ids and pairs are keys, and there is nothing but the supported pairs. -/
structure Keyed (st : ListingDb) : Prop where
  ids : (st.rows.map ExchangeRateCacheEntity.id).Nodup
  pairs : (st.rows.map ExchangeRateCacheEntity.pair).Nodup
  below : ∀ row ∈ st.rows, row.id < st.nextId
  supported : ∀ row ∈ st.rows, row.pair ∈ SUPPORTED_PAIRS

/-- Empty, or every pair has its entry and all expire together. -/
def Settled (rows : Rows) : Prop :=
  rows = [] ∨ (∀ pair ∈ SUPPORTED_PAIRS, ∃ row ∈ rows, row.pair = pair) ∧
    ∃ expiresAt, ∀ row ∈ rows, row.expiresAt = expiresAt

/-- A refresh has saved `rates`, and the pairs `rest` are to come. -/
structure Midway (rows : Rows) (expiresAt : Time) (rates : Rows) (rest : List String) : Prop where
  pairs : rates.map ExchangeRateCacheEntity.pair ++ rest = SUPPORTED_PAIRS
  saved : ∀ row ∈ rates, row ∈ rows ∧ row.expiresAt = expiresAt
  settled : rates = [] → Settled rows

theorem nodup_SUPPORTED_PAIRS : SUPPORTED_PAIRS.Nodup := by decide

theorem eq_of_pair {st : ListingDb} (h : Keyed st) {row row' : ExchangeRateCacheEntity}
    (hrow : row ∈ st.rows) (hrow' : row' ∈ st.rows) (hpair : row.pair = row'.pair) : row = row' :=
  List.inj_on_of_nodup_map h.pairs hrow hrow' hpair

/-- At its end the refresh has saved the whole table. -/
theorem Midway.mem_iff {st : ListingDb} (hkeyed : Keyed st) {expiresAt : Time} {rates : Rows}
    (h : Midway st.rows expiresAt rates []) (row : ExchangeRateCacheEntity) :
    row ∈ rates ↔ row ∈ st.rows := by
  constructor
  · exact fun hmem => (h.saved row hmem).1
  · intro hmem
    have hpairs := h.pairs
    rw [List.append_nil] at hpairs
    have hpair := hkeyed.supported row hmem
    rw [← hpairs] at hpair
    obtain ⟨row', hmem', hsame⟩ := List.mem_map.mp hpair
    rwa [← eq_of_pair hkeyed (h.saved row' hmem').1 hmem hsame]

theorem Midway.settled_of_end {st : ListingDb} (hkeyed : Keyed st) {expiresAt : Time} {rates : Rows}
    (h : Midway st.rows expiresAt rates []) : Settled st.rows := by
  have hpairs := h.pairs
  rw [List.append_nil] at hpairs
  refine Or.inr ⟨fun pair hpair => ?_, expiresAt, fun row hmem => ?_⟩
  · rw [← hpairs] at hpair
    obtain ⟨row, hmem, hsame⟩ := List.mem_map.mp hpair
    exact ⟨row, (h.saved row hmem).1, hsame⟩
  · exact (h.saved row ((h.mem_iff hkeyed row).mpr hmem)).2

/-! ## How far a call has come -/

/-- What a call makes of the entries of its refresh. -/
def finish : ListingCall → Rows → Answer
  | .getRates, rates => .rates rates
  | .getRateByPair pair, rates => .rate (rates.find? fun r => r.pair = pair)
  | _, _ => .nothing

section Stages

variable (cacheTtlSeconds : ℕ) (fetchRateFromSource : ℕ → String → ℚ) (i : ℕ) (k : ListingCall)

/-- A refresh is still to begin. -/
def starting : ListingProc Answer :=
  (fetchAndCacheRates cacheTtlSeconds fetchRateFromSource i).bind fun rates =>
    .done (.ok (finish k rates))

/-- The entry of a pair has been asked for. -/
def answering : Option ExchangeRateCacheEntity → ListingProc Answer
  | some cached => .done (.ok (.rate (some cached)))
  | none => starting cacheTtlSeconds fetchRateFromSource i k

/-- The loop has come to `pairs`. -/
def looping (now expiresAt : Time) (pairs : List String) (rates : Rows) : ListingProc Answer :=
  (refreshPairs fetchRateFromSource i now expiresAt pairs rates).bind fun rates =>
    .done (.ok (finish k rates))

/-- The entry `cached` of `pair` has been saved. -/
def recording (now expiresAt : Time) (pair : String) (pairs : List String) (rates : Rows)
    (cached : ExchangeRateCacheEntity) : ListingProc Answer :=
  (await (.saveHistory (rates.length + 1)
      ⟨pair, fetchRateFromSource i pair, "stellar", now⟩ expiresAt)).bind fun _ =>
    looping fetchRateFromSource i k now expiresAt pairs (rates ++ [cached])

/-- The entry of `pair` has been looked up. -/
def saving (now expiresAt : Time) (pair : String) (pairs : List String) (rates : Rows)
    (found : Option ExchangeRateCacheEntity) : ListingProc Answer :=
  (upsert rates.length pair (fetchRateFromSource i pair) now expiresAt found).bind
    (recording fetchRateFromSource i k now expiresAt pair pairs rates)

/-- What `findPair` has found is still there. -/
def Looked (rows : Rows) (pair : String) : Option ExchangeRateCacheEntity → Prop
  | some row => row ∈ rows ∧ row.pair = pair
  | none => ∀ row ∈ rows, row.pair ≠ pair

inductive Stage (rows : Rows) : ListingProc Answer → Prop
  | begun : Stage rows (prog cacheTtlSeconds fetchRateFromSource i k)
  | listing {since : Time} (isCall : k = .getRates) :
      Stage rows ((await (.find since)).bind fun cached =>
        if 0 < cached.length then .done (.ok (.rates cached))
        else starting cacheTtlSeconds fetchRateFromSource i k)
  | asking {since : Time} {pair : String} (isCall : k = .getRateByPair pair) :
      Stage rows ((await (.findOne pair since)).bind
        (answering cacheTtlSeconds fetchRateFromSource i k))
  | counting {since : Time} (isCall : k = .refreshExpiredRates) :
      Stage rows ((await (.count since)).bind fun expired =>
        if expired = 0 then starting cacheTtlSeconds fetchRateFromSource i k
        else .done (.ok .nothing))
  | starting : Stage rows (starting cacheTtlSeconds fetchRateFromSource i k)
  | looping {now expiresAt : Time} {rates : Rows} {pair : String} {pairs : List String}
      (midway : Midway rows expiresAt rates (pair :: pairs)) :
      Stage rows (looping fetchRateFromSource i k now expiresAt (pair :: pairs) rates)
  | saving {now expiresAt : Time} {rates : Rows} {pair : String} {pairs : List String}
      {found : Option ExchangeRateCacheEntity} (midway : Midway rows expiresAt rates (pair :: pairs))
      (looked : Looked rows pair found) :
      Stage rows (saving fetchRateFromSource i k now expiresAt pair pairs rates found)
  | recording {now expiresAt : Time} {rates : Rows} {pair : String} {pairs : List String}
      {cached : ExchangeRateCacheEntity} (midway : Midway rows expiresAt (rates ++ [cached]) pairs) :
      Stage rows (recording fetchRateFromSource i k now expiresAt pair pairs rates cached)
  | ended (r : Except Thrown Answer) : Stage rows (.done r)

end Stages

/-- Only a refresh depends on the table. -/
theorem Stage.of_not_refreshing {rows rows' : Rows} {i : ℕ} {k : ListingCall}
    {p : ListingProc Answer} (h : Stage cacheTtlSeconds fetchRateFromSource i k rows p)
    (hp : refreshing p = false) :
    Stage cacheTtlSeconds fetchRateFromSource i k rows' p := by
  cases h with
  | begun => exact .begun
  | listing hk => exact .listing hk
  | asking hk => exact .asking hk
  | counting hk => exact .counting hk
  | starting => exact .starting
  | looping _ => cases hp
  | @saving _ _ _ _ _ found _ _ =>
    cases found with
    | some row => cases hp
    | none => cases hp
  | recording _ => cases hp
  | ended r => exact .ended r

/-! ## Saving an entry -/

theorem Keyed.of_rows {st st' : ListingDb} (h : Keyed st) (hrows : st'.rows = st.rows)
    (hid : st'.nextId = st.nextId) : Keyed st' := by
  obtain ⟨hids, hpairs, hbelow, hsupported⟩ := h
  constructor
  · rwa [hrows]
  · rwa [hrows]
  · rwa [hrows, hid]
  · rwa [hrows]

/-- An entry takes the place of one of its pair. -/
theorem Keyed.update {st : ListingDb} (h : Keyed st) {row row' : ExchangeRateCacheEntity}
    (hmem : row ∈ st.rows) (hid : row'.id = row.id) (hpair : row'.pair = row.pair) :
    Keyed (st.put row') := by
  have hget : Table.get ExchangeRateCacheEntity.id st.rows row'.id = some row := by
    rw [hid]
    exact Table.get_of_mem _ h.ids hmem
  have hmap : (st.put row').rows.map ExchangeRateCacheEntity.pair =
      st.rows.map ExchangeRateCacheEntity.pair := by
    rw [ListingDb.put, Table.put_eq_map _ h.ids hget, List.map_map]
    refine List.map_congr_left fun x hx => ?_
    rw [Function.comp_apply]
    split
    · rename_i heq
      rw [hpair, List.inj_on_of_nodup_map h.ids hx hmem (heq.trans hid)]
    · rfl
  have hcases {x : ExchangeRateCacheEntity} (hx : x ∈ (st.put row').rows) :
      x = row' ∨ x ∈ st.rows := Table.mem_put _ hx
  refine ⟨Table.nodup_put _ h.ids, by rw [hmap]; exact h.pairs, fun x hx => ?_, fun x hx => ?_⟩
  · rcases hcases hx with rfl | hx
    · rw [hid]
      exact h.below row hmem
    · exact h.below x hx
  · rcases hcases hx with rfl | hx
    · rw [hpair]
      exact h.supported row hmem
    · exact h.supported x hx

/-- An entry of a pair that has none. -/
theorem Keyed.insert {st : ListingDb} (h : Keyed st) {row : ExchangeRateCacheEntity}
    (hid : row.id = st.nextId) (hpair : ∀ x ∈ st.rows, x.pair ≠ row.pair)
    (hsupported : row.pair ∈ SUPPORTED_PAIRS) :
    Keyed { st.put row with nextId := st.nextId + 1 } := by
  have hfresh : row.id ∉ st.rows.map ExchangeRateCacheEntity.id := by
    intro hmem
    obtain ⟨x, hx, heq⟩ := List.mem_map.mp hmem
    have hbelow := h.below x hx
    omega
  have hnone : Table.get ExchangeRateCacheEntity.id st.rows row.id = none :=
    (Table.get_eq_none _).mpr fun x hx heq => hfresh (List.mem_map.mpr ⟨x, hx, heq⟩)
  have hrows : (st.put row).rows = st.rows ++ [row] := Table.put_of_get_none _ hnone
  constructor
  case ids => exact Table.nodup_put _ h.ids
  case pairs =>
    show ((st.put row).rows.map ExchangeRateCacheEntity.pair).Nodup
    rw [hrows]
    refine Table.nodup_concat _ h.pairs fun hmem => ?_
    obtain ⟨x, hx, heq⟩ := List.mem_map.mp hmem
    exact hpair x hx heq
  case below =>
    intro x hx
    rcases Table.mem_put _ hx with rfl | hx
    · show x.id < st.nextId + 1
      omega
    · exact Nat.lt_succ_of_lt (h.below x hx)
  case supported =>
    intro x hx
    rcases Table.mem_put _ hx with rfl | hx
    · exact hsupported
    · exact h.supported x hx

/-- One more pair is saved. -/
theorem Midway.save {rows rows' : Rows} {expiresAt : Time} {rates : Rows} {pair : String}
    {pairs : List String} (h : Midway rows expiresAt rates (pair :: pairs))
    {cached : ExchangeRateCacheEntity} (hpair : cached.pair = pair)
    (hexpires : cached.expiresAt = expiresAt) (hmem : cached ∈ rows')
    (hkeep : ∀ row ∈ rows, row.pair ≠ pair → row ∈ rows') :
    Midway rows' expiresAt (rates ++ [cached]) pairs := by
  refine ⟨?_, fun row hrow => ?_, fun hnil => ?_⟩
  · rw [List.map_append, List.append_assoc, ← h.pairs]
    simp [hpair]
  · rcases List.mem_append.mp hrow with hold | hnew
    · obtain ⟨hrows, hexp⟩ := h.saved row hold
      refine ⟨hkeep row hrows fun heq => ?_, hexp⟩
      have hnodup := nodup_SUPPORTED_PAIRS
      rw [← h.pairs, List.nodup_append] at hnodup
      exact hnodup.2.2 _ (List.mem_map_of_mem hold) pair List.mem_cons_self heq
    · rw [List.mem_singleton] at hnew
      rw [hnew]
      exact ⟨hmem, hexpires⟩
  · exact absurd hnil (List.append_ne_nil_of_right_ne_nil _ (List.cons_ne_nil _ _))

theorem Midway.supported {rows : Rows} {expiresAt : Time} {rates : Rows} {pair : String}
    {pairs : List String} (h : Midway rows expiresAt rates (pair :: pairs)) :
    pair ∈ SUPPORTED_PAIRS := by
  rw [← h.pairs]
  exact List.mem_append_right _ List.mem_cons_self

/-! ## The invariant -/

structure Inv (cacheTtlSeconds : ℕ) (fetchRateFromSource : ℕ → String → ℚ) (cfg : ListingPool) :
    Prop where
  keyed : Keyed cfg.state
  stage : ∀ i th, cfg.thread i = some th →
    Stage cacheTtlSeconds fetchRateFromSource i th.call cfg.state.rows th.proc
  single : ∀ i j th th', cfg.thread i = some th → cfg.thread j = some th' →
    refreshing th.proc = true → refreshing th'.proc = true → i = j
  settled : (∀ i th, cfg.thread i = some th → refreshing th.proc = false) → Settled cfg.state.rows

theorem not_refreshing_of_noRefresh {cfg : ListingPool} (h : noRefresh cfg = true) {i : ℕ}
    {th : ListingThread} (hth : cfg.thread i = some th) : refreshing th.proc = false := by
  have hall := List.all_eq_true.mp h th (Table.mem_of_get _ hth)
  simpa using hall

namespace Inv

variable {cfg : ListingPool} {i : ℕ}

theorem spawn (h : Inv cacheTtlSeconds fetchRateFromSource cfg) (k : ListingCall)
    (hfresh : cfg.thread i = none) :
    Inv cacheTtlSeconds fetchRateFromSource
      (cfg.spawn i k (prog cacheTtlSeconds fetchRateFromSource i k)) := by
  have hidle : refreshing (prog cacheTtlSeconds fetchRateFromSource i k) = false := by
    cases k <;> rfl
  refine ⟨h.keyed, fun j th hth => ?_, fun j j' th th' hth hth' hbusy hbusy' => ?_, fun hnone => ?_⟩
  · rcases Config.thread_spawn_cases hth with ⟨rfl, rfl⟩ | hold
    · exact .begun
    · exact h.stage j th hold
  · rcases Config.thread_spawn_cases hth with ⟨rfl, rfl⟩ | hold
    · rw [hidle] at hbusy
      cases hbusy
    · rcases Config.thread_spawn_cases hth' with ⟨rfl, rfl⟩ | hold'
      · rw [hidle] at hbusy'
        cases hbusy'
      · exact h.single j j' th th' hold hold' hbusy hbusy'
  · refine h.settled fun j th hth => hnone j th ?_
    rw [Config.thread_spawn, if_neg, hth]
    rintro rfl
    rw [hth] at hfresh
    cases hfresh

/-- What a step of one call must do for the invariant to hold after it. -/
theorem resume (h : Inv cacheTtlSeconds fetchRateFromSource cfg) {th : ListingThread}
    (hth : cfg.thread i = some th) {c : ListingCmd}
    {next : Except Thrown c.Reply → ListingProc Answer} {r : Except Thrown (c.Reply × ListingDb)}
    (hkeyed : Keyed (after r cfg.state))
    (hrows : (after r cfg.state).rows = cfg.state.rows ∨ refreshing th.proc = true)
    (hstage : Stage cacheTtlSeconds fetchRateFromSource i th.call (after r cfg.state).rows
      (next (reply r)))
    (hbusy : refreshing (next (reply r)) = true →
      refreshing th.proc = true ∨ noRefresh cfg = true)
    (hsettled : refreshing (next (reply r)) = false → refreshing th.proc = true →
      Settled (after r cfg.state).rows) :
    Inv cacheTtlSeconds fetchRateFromSource (cfg.resume th next r) := by
  have hself {th' : ListingThread} (hth' : (cfg.resume th next r).thread i = some th') :
      th' = { th with begun := true, proc := next (reply r) } := by
    rw [Config.thread_resume, if_pos (Config.id_of_thread hth)] at hth'
    exact (Option.some.inj hth').symm
  have halone {j : ℕ} {th' : ListingThread} (hj : j ≠ i) (hth' : cfg.thread j = some th')
      (hrefreshing : refreshing (next (reply r)) = true) : refreshing th'.proc = false := by
    rcases hbusy hrefreshing with hold | hnone
    · by_contra hother
      rw [Bool.not_eq_false] at hother
      exact hj (h.single j i th' th hth' hth hother hold)
    · exact not_refreshing_of_noRefresh hnone hth'
  refine ⟨hkeyed, fun j th' hth' => ?_, fun j j' th' th'' hth' hth'' hbusy' hbusy'' => ?_,
    fun hnone => ?_⟩
  · rcases eq_or_ne j i with rfl | hj
    · rw [hself hth']
      exact hstage
    · rw [Config.thread_resume_ne hth hj] at hth'
      have hold := h.stage j th' hth'
      rcases hrows with hsame | hrefreshing
      · rwa [Config.resume_state, hsame]
      · refine hold.of_not_refreshing ?_
        by_contra hother
        rw [Bool.not_eq_false] at hother
        exact hj (h.single j i th' th hth' hth hother hrefreshing)
  · rcases eq_or_ne j i with rfl | hj
    · rcases eq_or_ne j' j with rfl | hj'
      · rfl
      · rw [hself hth'] at hbusy'
        rw [Config.thread_resume_ne hth hj'] at hth''
        rw [halone hj' hth'' hbusy'] at hbusy''
        cases hbusy''
    · rw [Config.thread_resume_ne hth hj] at hth'
      rcases eq_or_ne j' i with rfl | hj'
      · rw [hself hth''] at hbusy''
        rw [halone hj hth' hbusy''] at hbusy'
        cases hbusy'
      · rw [Config.thread_resume_ne hth hj'] at hth''
        exact h.single j j' th' th'' hth' hth'' hbusy' hbusy''
  · have hidle : refreshing (next (reply r)) = false :=
      hnone i { th with begun := true, proc := next (reply r) }
        (by rw [Config.thread_resume, if_pos (Config.id_of_thread hth)])
    cases hrefreshing : refreshing th.proc with
    | true => exact hsettled hidle hrefreshing
    | false =>
      have hsame : (after r cfg.state).rows = cfg.state.rows := by
        rcases hrows with hsame | hbusy
        · exact hsame
        · rw [hrefreshing] at hbusy
          cases hbusy
      rw [Config.resume_state, hsame]
      refine h.settled fun j th' hth' => ?_
      rcases eq_or_ne j i with rfl | hj
      · rw [hth] at hth'
        cases hth'
        exact hrefreshing
      · exact hnone j th' (by rw [Config.thread_resume_ne hth hj, hth'])

end Inv

/-! ## What the calls answer -/

/-- One unexpired entry of every pair, and these are the table. -/
structure Listed (st : ListingDb) (rates : Rows) : Prop where
  pairs : (rates.map ExchangeRateCacheEntity.pair).Perm SUPPORTED_PAIRS
  unexpired : ∀ row ∈ rates, st.now < row.expiresAt
  table : ∀ row, row ∈ rates ↔ row ∈ st.rows

/-- The table's only entry of the pair, unexpired. -/
structure IsEntry (st : ListingDb) (pair : String) (row : ExchangeRateCacheEntity) : Prop where
  mem : row ∈ st.rows
  asked : row.pair = pair
  unexpired : st.now < row.expiresAt
  only : ∀ row' ∈ st.rows, row'.pair = pair → row' = row

/-- What a call may return in this state. -/
def Correct : ListingCall → ListingDb → Answer → Prop
  | .getRates, st, .rates rates => Listed st rates
  | .getRateByPair pair, st, .rate rate =>
    pair ∈ SUPPORTED_PAIRS → ∃ row, rate = some row ∧ IsEntry st pair row
  | .refreshExpiredRates, _, .nothing => True
  | .tick _, _, .nothing => True
  | _, _, _ => False

theorem listed_of_settled {st : ListingDb} (hkeyed : Keyed st) (hsettled : Settled st.rows)
    {since : Time} (hsome : st.rows.filter (fun row => since < row.expiresAt) ≠ [])
    (hvalid : ∀ row ∈ st.rows, since < row.expiresAt → st.now < row.expiresAt) :
    Listed st (st.rows.filter fun row => since < row.expiresAt) := by
  obtain ⟨row, hrow⟩ := List.exists_mem_of_ne_nil _ hsome
  obtain ⟨hmem, hexp⟩ := List.mem_filter.mp hrow
  rcases hsettled with hnil | ⟨hall, expiresAt, hsame⟩
  · rw [hnil] at hmem
    cases hmem
  · have hwhole : st.rows.filter (fun row => since < row.expiresAt) = st.rows := by
      refine List.filter_eq_self.mpr fun x hx => ?_
      rwa [hsame x hx, ← hsame row hmem]
    rw [hwhole] at *
    refine ⟨?_, fun x hx => hvalid x hx ?_, fun x => Iff.rfl⟩
    · refine (List.perm_ext_iff_of_nodup hkeyed.pairs nodup_SUPPORTED_PAIRS).mpr fun pair => ?_
      constructor
      · intro hpair
        obtain ⟨x, hx, rfl⟩ := List.mem_map.mp hpair
        exact hkeyed.supported x hx
      · intro hpair
        obtain ⟨x, hx, rfl⟩ := hall pair hpair
        exact List.mem_map_of_mem hx
    · rw [hsame x hx, ← hsame row hmem]
      simpa using hexp

/-- What a refresh returns at its end. -/
theorem correct_of_end {st : ListingDb} (hkeyed : Keyed st) {expiresAt : Time} {rates : Rows}
    (h : Midway st.rows expiresAt rates []) (hvalid : st.now < expiresAt)
    (k : ListingCall) : Correct k st (finish k rates) := by
  have hpairs := h.pairs
  rw [List.append_nil] at hpairs
  cases k with
  | getRates =>
    refine ⟨by rw [hpairs], fun row hrow => ?_, h.mem_iff hkeyed⟩
    rw [(h.saved row hrow).2]
    exact hvalid
  | getRateByPair pair =>
    intro hsupported
    rw [← hpairs] at hsupported
    obtain ⟨row, hrow, hpair⟩ := List.mem_map.mp hsupported
    cases hfind : rates.find? fun r => r.pair = pair with
    | none =>
      have hnot := List.find?_eq_none.mp hfind row hrow
      exact absurd hpair (by simpa using hnot)
    | some found =>
      have hmem := List.mem_of_find?_eq_some hfind
      have hfound : found.pair = pair := by simpa using List.find?_some hfind
      refine ⟨found, rfl, (h.saved found hmem).1, hfound, ?_, fun row' hrow' hpair' => ?_⟩
      · rw [(h.saved found hmem).2]
        exact hvalid
      · exact eq_of_pair hkeyed hrow' (h.saved found hmem).1 (hpair'.trans hfound.symm)
  | refreshExpiredRates => trivial
  | tick ms => trivial

/-! ## One step -/

/-- What a step of call `i` must do. -/
structure StepOk (cacheTtlSeconds : ℕ) (fetchRateFromSource : ℕ → String → ℚ) (cfg : ListingPool)
    (i : ℕ) (th : ListingThread) {c : ListingCmd} (next : Except Thrown c.Reply → ListingProc Answer)
    (r : Except Thrown (c.Reply × ListingDb)) : Prop where
  keyed : Keyed (after r cfg.state)
  rows : (after r cfg.state).rows = cfg.state.rows ∨ refreshing th.proc = true
  stage : Stage cacheTtlSeconds fetchRateFromSource i th.call (after r cfg.state).rows (next (reply r))
  busy : refreshing (next (reply r)) = true → refreshing th.proc = true ∨ noRefresh cfg = true
  settled : refreshing (next (reply r)) = false → refreshing th.proc = true →
    Settled (after r cfg.state).rows
  correct : ∀ answer, next (reply r) = .done (.ok answer) → Correct th.call (after r cfg.state) answer

section Step

variable {cfg : ListingPool} {i : ℕ} {th : ListingThread} {c : ListingCmd}
  {next : Except Thrown c.Reply → ListingProc Answer}

/-- A command that is rejected ends the call, and a refresh only before its first
save. -/
theorem StepOk.error (hinv : Inv cacheTtlSeconds fetchRateFromSource cfg)
    (e : Thrown) (hnext : next (.error e) = .done (.error e))
    (hsettled : refreshing th.proc = true → Settled cfg.state.rows) :
    StepOk cacheTtlSeconds fetchRateFromSource cfg i th next (.error e) where
  keyed := hinv.keyed
  rows := Or.inl rfl
  stage := by
    rw [reply_error, hnext]
    exact .ended _
  busy h := by
    rw [reply_error, hnext] at h
    cases h
  settled _ := hsettled
  correct answer h := by
    rw [reply_error, hnext] at h
    cases h

/-- A call that is in no refresh reads something and goes on to `p`. -/
theorem StepOk.read (hinv : Inv cacheTtlSeconds fetchRateFromSource cfg) {a : c.Reply}
    {st' : ListingDb} {p : ListingProc Answer} (hnext : next (.ok a) = p)
    (hidle : refreshing th.proc = false) (hrows : st'.rows = cfg.state.rows)
    (hid : st'.nextId = cfg.state.nextId) (hp : refreshing p = false)
    (hstage : ∀ rows, Stage cacheTtlSeconds fetchRateFromSource i th.call rows p)
    (hcorrect : ∀ answer, p = .done (.ok answer) → Correct th.call st' answer) :
    StepOk cacheTtlSeconds fetchRateFromSource cfg i th next (.ok (a, st')) where
  keyed := hinv.keyed.of_rows hrows hid
  rows := Or.inl hrows
  stage := by
    rw [reply_ok, hnext]
    exact hstage _
  busy h := by
    rw [reply_ok, hnext, hp] at h
    cases h
  settled _ h := by
    rw [hidle] at h
    cases h
  correct := by
    rw [reply_ok, hnext]
    exact hcorrect

/-- A refresh goes on to `p`. -/
theorem StepOk.refresh {a : c.Reply} {st' : ListingDb} {p : ListingProc Answer}
    (hnext : next (.ok a) = p) (hkeyed : Keyed st')
    (hbusy : refreshing th.proc = true ∨ noRefresh cfg = true ∧ st'.rows = cfg.state.rows)
    (hstage : Stage cacheTtlSeconds fetchRateFromSource i th.call st'.rows p)
    (hp : refreshing p = true) :
    StepOk cacheTtlSeconds fetchRateFromSource cfg i th next (.ok (a, st')) where
  keyed := hkeyed
  rows := hbusy.symm.imp And.right id
  stage := by
    rw [reply_ok, hnext]
    exact hstage
  busy _ := hbusy.imp id And.left
  settled h := by
    rw [reply_ok, hnext, hp] at h
    cases h
  correct answer h := by
    rw [reply_ok, hnext] at h
    rw [h] at hp
    cases hp

/-! ### What the programs go on to -/

variable (cacheTtlSeconds fetchRateFromSource) (i) (k : ListingCall)

theorem prog_next (hk : ∀ ms, k ≠ .tick ms) :
    ∃ next, prog cacheTtlSeconds fetchRateFromSource i k = .await .now next ∧
      ∀ since, refreshing (next (.ok since)) = false ∧
        (∀ answer, next (.ok since) ≠ .done (.ok answer)) ∧
        ∀ rows, Stage cacheTtlSeconds fetchRateFromSource i k rows (next (.ok since)) := by
  cases k with
  | getRates =>
    refine ⟨_, rfl, fun since => ⟨rfl, (fun _ h => by cases h), fun rows => ?_⟩⟩
    have hsame : ((await (.find since)).bind fun cached =>
        if 0 < cached.length then .done (.ok cached)
        else fetchAndCacheRates cacheTtlSeconds fetchRateFromSource i).bind
          (fun rates => .done (.ok (.rates rates))) =
        (await (.find since)).bind fun cached =>
          if 0 < cached.length then .done (.ok (.rates cached))
          else starting cacheTtlSeconds fetchRateFromSource i .getRates := by
      rw [Proc.bind_assoc]
      congr 1
      funext cached
      split <;> rfl
    exact hsame ▸ Stage.listing rfl
  | getRateByPair pair =>
    refine ⟨_, rfl, fun since => ⟨rfl, (fun _ h => by cases h), fun rows => ?_⟩⟩
    show Stage cacheTtlSeconds fetchRateFromSource i (.getRateByPair pair) rows
      (((await (.findOne pair since)).bind _).bind _)
    rw [Proc.bind_assoc]
    convert Stage.asking rfl using 2
    funext cached
    cases cached with
    | some cached => rfl
    | none => exact Proc.bind_assoc _ _ _
  | refreshExpiredRates =>
    refine ⟨_, rfl, fun since => ⟨rfl, (fun _ h => by cases h), fun rows => ?_⟩⟩
    have hsame : ((await (.count since)).bind fun expired =>
        if expired = 0 then
          (fetchAndCacheRates cacheTtlSeconds fetchRateFromSource i).bind fun _ => .done (.ok ())
        else .done (.ok ())).bind (fun _ => .done (.ok .nothing)) =
        (await (.count since)).bind fun expired =>
          if expired = 0 then starting cacheTtlSeconds fetchRateFromSource i .refreshExpiredRates
          else .done (.ok .nothing) := by
      rw [Proc.bind_assoc]
      congr 1
      funext expired
      split
      · exact Proc.bind_assoc _ _ _
      · rfl
    exact hsame ▸ Stage.counting rfl
  | tick ms => exact absurd rfl (hk ms)

theorem looping_next (now expiresAt : Time) (pair : String) (pairs : List String) (rates : Rows) :
    ∃ next, looping fetchRateFromSource i k now expiresAt (pair :: pairs) rates =
        .await (.findPair rates.length pair) next ∧
      (∀ found, next (.ok found) =
        saving fetchRateFromSource i k now expiresAt pair pairs rates found) ∧
      ∀ e, next (.error e) = .done (.error e) := by
  refine ⟨_, rfl, fun found => ?_, fun e => rfl⟩
  rw [saving]
  simp only [Proc.done_ok_bind, Proc.bind_eq, Proc.bind_assoc]
  rfl

theorem saving_next (now expiresAt : Time) (pair : String) (pairs : List String) (rates : Rows)
    (found : Option ExchangeRateCacheEntity) :
    refreshing (saving fetchRateFromSource i k now expiresAt pair pairs rates found) = true := by
  cases found with
  | some row => rfl
  | none => rfl

theorem looping_nil (now expiresAt : Time) (rates : Rows) :
    looping fetchRateFromSource i k now expiresAt [] rates = .done (.ok (finish k rates)) := rfl

theorem refreshing_looping (now expiresAt : Time) (pair : String) (pairs : List String)
    (rates : Rows) :
    refreshing (looping fetchRateFromSource i k now expiresAt (pair :: pairs) rates) = true := rfl

end Step

section Stages

variable {cfg : ListingPool} {i : ℕ} {th : ListingThread} {c : ListingCmd}
  {next : Except Thrown c.Reply → ListingProc Answer} {fault : Option Thrown}

theorem step_begun (hinv : Inv cacheTtlSeconds fetchRateFromSource cfg)
    (hproc : prog cacheTtlSeconds fetchRateFromSource i th.call = .await c next)
    (hidle : refreshing th.proc = false) (hfault : fault = none ∨ mayFail c = true) :
    StepOk cacheTtlSeconds fetchRateFromSource cfg i th next
      (outcome fault (exec choice c cfg.state)) := by
  by_cases htick : ∃ ms, th.call = .tick ms
  · obtain ⟨ms, hcall⟩ := htick
    rw [hcall] at hproc
    cases hproc
    obtain rfl : fault = none := by simpa [mayFail] using hfault
    refine StepOk.read hinv rfl hidle rfl rfl rfl (fun rows => .ended _) ?_
    intro answer hanswer
    cases hanswer
    rw [hcall]
    trivial
  · obtain ⟨next', heq, hnext⟩ := prog_next cacheTtlSeconds fetchRateFromSource i th.call
      fun ms hcall => htick ⟨ms, hcall⟩
    rw [heq] at hproc
    cases hproc
    obtain rfl : fault = none := by simpa [mayFail] using hfault
    obtain ⟨hp, hdone, hstage⟩ := hnext cfg.state.now
    exact StepOk.read hinv rfl hidle rfl rfl hp hstage fun answer h => absurd h (hdone answer)

theorem stillValid_iff (since : Time) : stillValid cfg since = true ↔
    ∀ row ∈ cfg.state.rows, since < row.expiresAt → cfg.state.now < row.expiresAt := by
  simp only [stillValid, List.all_eq_true, decide_eq_true_eq]

theorem settled_of_noRefresh (hinv : Inv cacheTtlSeconds fetchRateFromSource cfg)
    (h : noRefresh cfg = true) : Settled cfg.state.rows :=
  hinv.settled fun _ _ hth => not_refreshing_of_noRefresh h hth

theorem step_listing (hinv : Inv cacheTtlSeconds fetchRateFromSource cfg)
    (hcall : th.call = .getRates) {since : Time}
    (hproc : ((await (.find since)).bind fun cached =>
      if 0 < cached.length then .done (.ok (.rates cached))
      else starting cacheTtlSeconds fetchRateFromSource i th.call) = .await c next)
    (hidle : refreshing th.proc = false)
    (hD : orderlyStep cfg th c (failed (outcome fault (exec choice c cfg.state))) = true) :
    StepOk cacheTtlSeconds fetchRateFromSource cfg i th next
      (outcome fault (exec choice c cfg.state)) := by
  cases hproc
  cases fault with
  | some e =>
    refine StepOk.error hinv e rfl fun h => ?_
    rw [hidle] at h
    cases h
  | none =>
    change (false || (noRefresh cfg && stillValid cfg since)) = true at hD
    rw [Bool.false_or, Bool.and_eq_true, stillValid_iff] at hD
    by_cases hsome : 0 < (cfg.state.rows.filter fun row => since < row.expiresAt).length
    · refine StepOk.read hinv (if_pos hsome) hidle rfl rfl rfl (fun rows => .ended _) ?_
      intro answer hanswer
      cases hanswer
      rw [hcall]
      exact listed_of_settled hinv.keyed (settled_of_noRefresh hinv hD.1)
        (List.ne_nil_of_length_pos hsome) hD.2
    · refine StepOk.read hinv (if_neg hsome) hidle rfl rfl rfl (fun rows => .starting) ?_
      intro answer hanswer
      cases hanswer

theorem step_asking (hinv : Inv cacheTtlSeconds fetchRateFromSource cfg) {pair : String}
    (hcall : th.call = .getRateByPair pair) {since : Time}
    (hproc : (await (.findOne pair since)).bind
      (answering cacheTtlSeconds fetchRateFromSource i th.call) = .await c next)
    (hidle : refreshing th.proc = false)
    (hD : orderlyStep cfg th c (failed (outcome fault (exec choice c cfg.state))) = true) :
    StepOk cacheTtlSeconds fetchRateFromSource cfg i th next
      (outcome fault (exec choice c cfg.state)) := by
  cases hproc
  cases fault with
  | some e =>
    refine StepOk.error hinv e rfl fun h => ?_
    rw [hidle] at h
    cases h
  | none =>
    change (false || stillValid cfg since) = true at hD
    rw [Bool.false_or, stillValid_iff] at hD
    have hexec : exec choice (.findOne pair since) cfg.state =
        .ok (choice.choose cfg.state.queries
            (cfg.state.rows.filter fun row => row.pair = pair ∧ since < row.expiresAt),
          { cfg.state with queries := cfg.state.queries + 1 }) := rfl
    rw [hexec]
    cases hfound : choice.choose cfg.state.queries
      (cfg.state.rows.filter fun row => row.pair = pair ∧ since < row.expiresAt) with
    | none =>
      refine StepOk.read hinv rfl hidle rfl rfl rfl (fun rows => .starting) ?_
      intro answer hanswer
      cases hanswer
    | some row =>
      refine StepOk.read hinv rfl hidle rfl rfl rfl (fun rows => .ended _) ?_
      intro answer hanswer
      cases hanswer
      have hmem := List.mem_filter.mp (choice.mem _ _ _ hfound)
      have hrow : row.pair = pair ∧ since < row.expiresAt := by simpa using hmem.2
      rw [hcall]
      intro _
      refine ⟨row, rfl, hmem.1, hrow.1, hD row hmem.1 hrow.2, fun row' hrow' hpair => ?_⟩
      exact eq_of_pair hinv.keyed hrow' hmem.1 (hpair.trans hrow.1.symm)

theorem step_counting (hinv : Inv cacheTtlSeconds fetchRateFromSource cfg)
    (hcall : th.call = .refreshExpiredRates) {since : Time}
    (hproc : ((await (.count since)).bind fun expired =>
      if expired = 0 then starting cacheTtlSeconds fetchRateFromSource i th.call
      else .done (.ok .nothing)) = .await c next)
    (hidle : refreshing th.proc = false) :
    StepOk cacheTtlSeconds fetchRateFromSource cfg i th next
      (outcome fault (exec choice c cfg.state)) := by
  cases hproc
  cases fault with
  | some e =>
    refine StepOk.error hinv e rfl fun h => ?_
    rw [hidle] at h
    cases h
  | none =>
    by_cases hzero : (cfg.state.rows.filter fun row => since < row.expiresAt).length = 0
    · refine StepOk.read hinv (if_pos hzero) hidle rfl rfl rfl (fun rows => .starting) ?_
      intro answer hanswer
      cases hanswer
    · refine StepOk.read hinv (if_neg hzero) hidle rfl rfl rfl (fun rows => .ended _) ?_
      intro answer hanswer
      cases hanswer
      rw [hcall]
      trivial

theorem step_starting (hinv : Inv cacheTtlSeconds fetchRateFromSource cfg)
    (hproc : starting cacheTtlSeconds fetchRateFromSource i th.call = .await c next)
    (hfault : fault = none ∨ mayFail c = true)
    (hD : orderlyStep cfg th c (failed (outcome fault (exec choice c cfg.state))) = true) :
    StepOk cacheTtlSeconds fetchRateFromSource cfg i th next
      (outcome fault (exec choice c cfg.state)) := by
  cases hproc
  obtain rfl : fault = none := by simpa [mayFail] using hfault
  refine StepOk.refresh rfl hinv.keyed (Or.inr ⟨hD, rfl⟩) (Stage.looping ⟨rfl, ?_, ?_⟩) rfl
  · intro row hrow
    cases hrow
  · exact fun _ => settled_of_noRefresh hinv hD

theorem step_looping (hinv : Inv cacheTtlSeconds fetchRateFromSource cfg) {now expiresAt : Time}
    {pair : String} {pairs : List String} {rates : Rows}
    (hmidway : Midway cfg.state.rows expiresAt rates (pair :: pairs))
    (hproc : looping fetchRateFromSource i th.call now expiresAt (pair :: pairs) rates =
      .await c next)
    (hbusy : refreshing th.proc = true)
    (hD : orderlyStep cfg th c (failed (outcome fault (exec choice c cfg.state))) = true) :
    StepOk cacheTtlSeconds fetchRateFromSource cfg i th next
      (outcome fault (exec choice c cfg.state)) := by
  obtain ⟨next', heq, hok, herror⟩ :=
    looping_next fetchRateFromSource i th.call now expiresAt pair pairs rates
  rw [heq] at hproc
  cases hproc
  cases fault with
  | some e =>
    refine StepOk.error hinv e (herror e) fun _ => hmidway.settled ?_
    have hsaved : rates.length = 0 := by simpa [orderlyStep] using hD
    exact List.eq_nil_of_length_eq_zero hsaved
  | none =>
    refine StepOk.refresh (hok _) (hinv.keyed.of_rows rfl rfl) (Or.inl hbusy)
      (.saving hmidway ?_) (saving_next ..)
    cases hfound : choice.choose cfg.state.queries
      (cfg.state.rows.filter fun row => row.pair = pair) with
    | some row =>
      have hmem := List.mem_filter.mp (choice.mem _ _ _ hfound)
      exact ⟨hmem.1, by simpa using hmem.2⟩
    | none =>
      intro row hrow hpair
      have hsome := choice.isSome cfg.state.queries
        (cfg.state.rows.filter fun row => row.pair = pair)
        (List.ne_nil_of_mem (List.mem_filter.mpr ⟨hrow, by simpa using hpair⟩))
      rw [hfound] at hsome
      cases hsome

theorem step_saving (hinv : Inv cacheTtlSeconds fetchRateFromSource cfg) {now expiresAt : Time}
    {pair : String} {pairs : List String} {rates : Rows} {found : Option ExchangeRateCacheEntity}
    (hmidway : Midway cfg.state.rows expiresAt rates (pair :: pairs))
    (hlooked : Looked cfg.state.rows pair found)
    (hproc : saving fetchRateFromSource i th.call now expiresAt pair pairs rates found =
      .await c next)
    (hbusy : refreshing th.proc = true)
    (hD : orderlyStep cfg th c (failed (outcome fault (exec choice c cfg.state))) = true) :
    StepOk cacheTtlSeconds fetchRateFromSource cfg i th next
      (outcome fault (exec choice c cfg.state)) := by
  have hkeep {row row' : ExchangeRateCacheEntity} (hrow : row ∈ cfg.state.rows)
      (hne : row.id ≠ row'.id) : row ∈ (cfg.state.put row').rows :=
    Table.mem_put_of_ne _ hrow hne
  cases found with
  | some row =>
    cases hproc
    cases fault with
    | some e =>
      refine StepOk.error hinv e rfl fun _ => hmidway.settled ?_
      have hsaved : rates.length = 0 := by simpa [orderlyStep] using hD
      exact List.eq_nil_of_length_eq_zero hsaved
    | none =>
      obtain ⟨hmem, hpair⟩ := hlooked
      refine StepOk.refresh rfl (hinv.keyed.update hmem rfl rfl) (Or.inl hbusy)
        (.recording (hmidway.save hpair rfl (Table.mem_put_self _ _ _) ?_)) rfl
      intro x hx hne
      refine hkeep hx fun hid => hne ?_
      rw [List.inj_on_of_nodup_map hinv.keyed.ids hx hmem hid, hpair]
  | none =>
    cases hproc
    cases fault with
    | some e =>
      refine StepOk.error hinv e rfl fun _ => hmidway.settled ?_
      have hsaved : rates.length = 0 := by simpa [orderlyStep] using hD
      exact List.eq_nil_of_length_eq_zero hsaved
    | none =>
      refine StepOk.refresh rfl (hinv.keyed.insert rfl hlooked hmidway.supported) (Or.inl hbusy)
        (.recording (hmidway.save rfl rfl (Table.mem_put_self _ _ _) ?_)) rfl
      intro x hx _
      refine hkeep hx ?_
      have hbelow := hinv.keyed.below x hx
      show x.id ≠ cfg.state.nextId
      omega

theorem step_recording (hinv : Inv cacheTtlSeconds fetchRateFromSource cfg) {now expiresAt : Time}
    {pair : String} {pairs : List String} {rates : Rows} {cached : ExchangeRateCacheEntity}
    (hmidway : Midway cfg.state.rows expiresAt (rates ++ [cached]) pairs)
    (hproc : recording fetchRateFromSource i th.call now expiresAt pair pairs rates cached =
      .await c next)
    (hbusy : refreshing th.proc = true)
    (hD : orderlyStep cfg th c (failed (outcome fault (exec choice c cfg.state))) = true) :
    StepOk cacheTtlSeconds fetchRateFromSource cfg i th next
      (outcome fault (exec choice c cfg.state)) := by
  cases hproc
  cases fault with
  | some e => cases hD
  | none =>
    have hkeyed : Keyed { cfg.state with
        history := cfg.state.history ++ [⟨pair, fetchRateFromSource i pair, "stellar", now⟩] } :=
      hinv.keyed.of_rows rfl rfl
    have hvalid : rates.length + 1 = SUPPORTED_PAIRS.length → cfg.state.now < expiresAt := by
      change (!false && decide (rates.length + 1 = SUPPORTED_PAIRS.length →
        cfg.state.now < expiresAt)) = true at hD
      rwa [Bool.not_false, Bool.true_and, decide_eq_true_eq] at hD
    cases pairs with
    | cons pair' pairs =>
      exact StepOk.refresh rfl hkeyed (Or.inl hbusy) (.looping hmidway)
        (refreshing_looping ..)
    | nil =>
      have hnow : cfg.state.now < expiresAt := by
        refine hvalid ?_
        have hlength := congrArg List.length hmidway.pairs
        rwa [List.append_nil, List.length_map, List.length_append] at hlength
      constructor
      case keyed => exact hkeyed
      case rows => exact Or.inl rfl
      case stage => exact .ended _
      case busy => exact fun _ => Or.inl hbusy
      case settled => exact fun _ _ => hmidway.settled_of_end hkeyed
      case correct =>
        intro answer hanswer
        cases hanswer
        exact correct_of_end hkeyed hmidway hnow th.call

/-- Every step of an orderly run. -/
theorem step_ok (hinv : Inv cacheTtlSeconds fetchRateFromSource cfg)
    (hth : cfg.thread i = some th) (hproc : th.proc = .await c next)
    (hfault : fault = none ∨ mayFail c = true)
    (hD : orderlyStep cfg th c (failed (outcome fault (exec choice c cfg.state))) = true) :
    StepOk cacheTtlSeconds fetchRateFromSource cfg i th next
      (outcome fault (exec choice c cfg.state)) := by
  have hstage := hinv.stage i th hth
  have hat {b : Bool} (h : refreshing (.await c next) = b) : refreshing th.proc = b := by
    rw [hproc, h]
  rw [hproc] at hstage
  generalize hp : Proc.await c next = p at hstage hat
  cases hstage with
  | begun =>
    refine step_begun hinv hp.symm (hat ?_) hfault
    cases th.call <;> rfl
  | listing hcall => exact step_listing hinv hcall hp.symm (hat rfl) hD
  | asking hcall => exact step_asking hinv hcall hp.symm (hat rfl) hD
  | counting hcall => exact step_counting hinv hcall hp.symm (hat rfl)
  | starting => exact step_starting hinv hp.symm hfault hD
  | looping hmidway => exact step_looping hinv hmidway hp.symm (hat rfl) hD
  | saving hmidway hlooked =>
    exact step_saving hinv hmidway hlooked hp.symm (hat (saving_next ..)) hD
  | recording hmidway => exact step_recording hinv hmidway hp.symm (hat rfl) hD
  | ended r => cases hp

end Stages

/-! ## Whole runs -/

theorem inv_start (t : Time) : Inv cacheTtlSeconds fetchRateFromSource (start t) := by
  have hnone {i : ℕ} {th : ListingThread} : (start t).thread i ≠ some th := by
    intro hth
    cases hth
  refine ⟨⟨List.nodup_nil, List.nodup_nil, ?_, ?_⟩, fun _ _ hth => absurd hth hnone,
    fun _ _ _ _ hth => absurd hth hnone, fun _ => Or.inl rfl⟩
  · intro row hrow
    cases hrow
  · intro row hrow
    cases hrow

theorem inv_of_reach {t : Time} {cfg : ListingPool}
    (h : Reach (server choice cacheTtlSeconds fetchRateFromSource) orderly (start t) cfg) :
    Inv cacheTtlSeconds fetchRateFromSource cfg := by
  refine h.invariant (inv_start t) ?call ?step
  case call =>
    intro cfg i k hinv hfresh _
    exact hinv.spawn k hfresh
  case step =>
    intro cfg i fault th c next hinv hth hproc _ hfault hD
    have hok := step_ok hinv hth hproc hfault hD
    exact hinv.resume hth hok.keyed hok.rows hok.stage hok.busy hok.settled

/-- What call `i` has returned. -/
def returned (cfg : ListingPool) (i : ℕ) : Option Answer :=
  (cfg.thread i).bind fun th => th.proc.returned

theorem eq_done_of_returned {p : ListingProc Answer} {answer : Answer}
    (h : p.returned = some answer) : p = .done (.ok answer) := by
  cases p with
  | await c next => cases h
  | done r =>
    cases r with
    | error e => cases h
    | ok a =>
      cases h
      rfl

/-- In every orderly run, a step that makes a call return makes it return what
the listing is: one unexpired entry of every supported pair, or the one of the
pair that was asked for. -/
theorem listing_complete {t : Time} {cfg cfg' : ListingPool} {i : ℕ} {fault : Option Thrown}
    {k : ListingCall} {answer : Answer}
    (h : Reach (server choice cacheTtlSeconds fetchRateFromSource) orderly (start t) cfg)
    (horderly : (server choice cacheTtlSeconds fetchRateFromSource).passes orderlyStep cfg
      (.step i fault) = true)
    (hstep : (server choice cacheTtlSeconds fetchRateFromSource).step cfg (.step i fault) =
      some cfg')
    (hcall : cfg.called i = some k) (hreturned : returned cfg' i = some answer) :
    Correct k cfg'.state answer := by
  have hinv := inv_of_reach h
  rcases System.step_cases hstep with ⟨_, _, heq, _⟩ |
    ⟨_, _, th, c, next, heq, hth, hproc, _, hfault, rfl⟩
  · cases heq
  · cases heq
    rw [System.passes, hth] at horderly
    simp only [hproc] at horderly
    rw [Config.called_of_thread hth] at hcall
    cases hcall
    rw [returned, Config.thread_resume, if_pos (Config.id_of_thread hth)] at hreturned
    exact (step_ok hinv hth hproc hfault horderly).correct answer (eq_done_of_returned hreturned)

/-! ## Two runs from the empty table -/

def constantServer : System ListingCall ListingCmd ListingCmd.Reply Thrown ListingDb Answer :=
  server .first 60 fun _ _ => 1

/-- `n` steps of call `i`. -/
def steps (i n : ℕ) : List (Event ListingCall Thrown) := List.replicate n (.step i none)

/-- What one call caches. -/
def coldRates : Rows :=
  SUPPORTED_PAIRS.zipIdx.map fun (pair, id) => ⟨id, pair, 1, "stellar", 0, 60000⟩

/-- The first call, alone, returns all that it has saved. -/
theorem listing_complete_cold : ∃ cfg cfg' : ListingPool,
    Reach constantServer orderly (start 0) cfg ∧
    constantServer.step cfg (.step 0 none) = some cfg' ∧
    returned cfg' 0 = some (.rates coldRates) ∧ Correct .getRates cfg'.state (.rates coldRates) := by
  obtain ⟨cfg, hrun⟩ : ∃ cfg, constantServer.runChecked orderlyStep (start 0)
      (.call 0 .getRates :: steps 0 17) = some cfg :=
    Option.isSome_iff_exists.mp (by decide +kernel)
  have hlast : ((constantServer.runChecked orderlyStep (start 0)
      (.call 0 .getRates :: steps 0 17)).map fun cfg =>
        (constantServer.passes orderlyStep cfg (.step 0 none), cfg.called 0,
          (constantServer.step cfg (.step 0 none)).map fun cfg' => returned cfg' 0)) =
      some (true, some .getRates, some (some (.rates coldRates))) := by decide +kernel
  rw [hrun, Option.map_some, Option.some.injEq, Prod.mk.injEq, Prod.mk.injEq] at hlast
  obtain ⟨horderly, hcall, hreturned⟩ := hlast
  obtain ⟨cfg', hstep, hreturned⟩ := Option.map_eq_some_iff.mp hreturned
  have hreach : Reach constantServer orderly (start 0) cfg :=
    Reach.refl.of_runChecked (fun _ _ _ _ => trivial) (fun _ _ _ _ h => h) hrun
  exact ⟨cfg, cfg', hreach, hstep, hreturned,
    listing_complete hreach horderly hstep hcall hreturned⟩

/-- A second call, after the first has saved one pair, takes it for the listing. -/
theorem listing_truncated : ∃ cfg cfg' : ListingPool,
    Reach constantServer .free (start 0) cfg ∧
    constantServer.step cfg (.step 1 none) = some cfg' ∧
    cfg.called 1 = some .getRates ∧
    returned cfg' 1 = some (.rates [⟨0, "USD/NGN", 1, "stellar", 0, 60000⟩]) ∧
    ¬ Correct .getRates cfg'.state (.rates [⟨0, "USD/NGN", 1, "stellar", 0, 60000⟩]) := by
  obtain ⟨cfg, hcfg⟩ : ∃ cfg, cfg = constantServer.play (start 0)
      (.call 0 .getRates :: steps 0 5 ++ .call 1 .getRates :: steps 1 1) := ⟨_, rfl⟩
  have hlast : (cfg.called 1, (constantServer.step cfg (.step 1 none)).map fun cfg' =>
      returned cfg' 1) =
      (some .getRates, some (some (.rates [⟨0, "USD/NGN", 1, "stellar", 0, 60000⟩]))) := by
    rw [hcfg]
    decide +kernel
  rw [Prod.mk.injEq] at hlast
  obtain ⟨hcall, hreturned⟩ := hlast
  obtain ⟨cfg', hstep, hreturned⟩ := Option.map_eq_some_iff.mp hreturned
  refine ⟨cfg, cfg', ?_, hstep, hcall, hreturned, fun hcorrect => ?_⟩
  · rw [hcfg]
    exact Reach.play _ .refl
  · have hlength := hcorrect.pairs.length_eq
    cases hlength

end RateListing

end NexaFx
