import Mathlib.Data.List.DropRight
import NexaFx.Lib.Separator
import NexaFx.Model.Metrics

/-!
# NexaFx — the HTTP metrics agree with the requests

The two maps are the requests gathered under the texts of their labels
(`counters_run`, `histograms_run`). When no method contains a `|`, the texts
tell the labels apart, so that each combination has one counter, each method
and route one histogram, and what they count can be read off the groups.

Main result: `metrics_consistent`.
-/

namespace NexaFx

namespace Metrics

/-! ## Requests and their labels -/

/-- The requests among the operations. -/
def Operation.request : Operation → Option HttpRequest
  | .recordHttpRequest r => some r
  | _ => none

def requests (ops : List Operation) : List HttpRequest := ops.filterMap Operation.request

def run (ops : List Operation) : MetricsService := ops.foldl apply fresh

structure Series where
  method : String
  route : String
  statusCode : ℕ
  deriving DecidableEq

structure Endpoint where
  method : String
  route : String
  deriving DecidableEq

def HttpRequest.series (r : HttpRequest) : Series := ⟨r.method, r.route, r.statusCode⟩

def HttpRequest.endpoint (r : HttpRequest) : Endpoint := ⟨r.method, r.route⟩

def Series.key (s : Series) : String := labelKey s.method s.route s.statusCode

def Series.endpoint (s : Series) : Endpoint := ⟨s.method, s.route⟩

def Endpoint.key (e : Endpoint) : String := latencyKey e.method e.route

/-- No `|` in the method. -/
def Plain (method : String) : Prop := '|' ∉ method.toList

theorem toList_endpoint_key (e : Endpoint) :
    e.key.toList = e.method.toList ++ '|' :: e.route.toList := by
  have hbar : "|".toList = ['|'] := rfl
  simp only [Endpoint.key, latencyKey, String.toList_append, hbar, List.append_assoc,
    List.singleton_append]

theorem toList_series_key (s : Series) : s.key.toList =
    s.method.toList ++ '|' :: (s.route.toList ++ '|' :: (toString s.statusCode).toList) := by
  have hbar : "|".toList = ['|'] := rfl
  simp only [Series.key, labelKey, String.toList_append, hbar, List.append_assoc,
    List.cons_append, List.nil_append]

theorem endpoint_key_inj {e e' : Endpoint} (he : Plain e.method) (he' : Plain e'.method)
    (h : e.key = e'.key) : e = e' := by
  have hlist := congrArg String.toList h
  rw [toList_endpoint_key, toList_endpoint_key] at hlist
  obtain ⟨hmethod, hroute⟩ := Separator.split_first he he' hlist
  cases e
  cases e'
  rw [Endpoint.mk.injEq]
  exact ⟨String.toList_inj.mp hmethod, String.toList_inj.mp hroute⟩

theorem series_key_inj {s s' : Series} (hs : Plain s.method) (hs' : Plain s'.method)
    (h : s.key = s'.key) : s = s' := by
  have hlist := congrArg String.toList h
  rw [toList_series_key, toList_series_key] at hlist
  obtain ⟨hmethod, hrest⟩ := Separator.split_first hs hs' hlist
  obtain ⟨hroute, hstatus⟩ := Separator.split_last (Separator.notMem_toString rfl s.statusCode)
    (Separator.notMem_toString rfl s'.statusCode) hrest
  cases s
  cases s'
  rw [Series.mk.injEq]
  exact ⟨String.toList_inj.mp hmethod, String.toList_inj.mp hroute,
    Separator.toString_injective (String.toList_inj.mp hstatus)⟩

/-! ## The two maps -/

def Series.counter (s : Series) (calls : List HttpRequest) : Counter :=
  ⟨calls.length, counterLabels s.method s.route s.statusCode⟩

def Endpoint.histogram (e : Endpoint) (calls : List HttpRequest) : Histogram :=
  { sum := (calls.map HttpRequest.durationSeconds).sum
    count := calls.length
    buckets := latencyBuckets.map fun b => (b, calls.countP fun r => r.durationSeconds ≤ b)
    labels := histogramLabels e.method e.route }

/-- The entry of a group of requests. -/
def counterEntry (g : Series × List HttpRequest) : String × Counter := (g.1.key, g.1.counter g.2)

def histogramEntry (g : Endpoint × List HttpRequest) : String × Histogram :=
  (g.1.key, g.1.histogram g.2)

theorem histogram_append (e : Endpoint) (calls : List HttpRequest) (r : HttpRequest) :
    e.histogram (calls ++ [r]) = (e.histogram calls).observe r.durationSeconds := by
  unfold Endpoint.histogram Histogram.observe
  simp only [List.map_append, List.map_cons, List.map_nil, List.sum_append, List.sum_singleton,
    List.length_append, List.length_singleton, List.map_map, List.countP_append,
    Histogram.mk.injEq, true_and, and_true]
  refine List.map_congr_left fun b _ => ?_
  simp only [Function.comp_apply, List.countP_singleton, decide_eq_true_eq]
  split <;> rfl

/-- Requests with a plain method, gathered. -/
theorem plain_of_mem_group {κ : Type} [DecidableEq κ] {key : HttpRequest → κ}
    (method : κ → String) (hkey : ∀ r, method (key r) = r.method) {rs : List HttpRequest}
    (hplain : ∀ r ∈ rs, Plain r.method) {g : κ × List HttpRequest}
    (hg : g ∈ Grouping.group key rs) : Plain (method g.1) := by
  obtain ⟨⟨r, hr, hrg⟩, -⟩ := (Grouping.mem_group key).mp hg
  rw [← hrg, hkey]
  exact hplain r hr

theorem count_group {rs : List HttpRequest} (hplain : ∀ r ∈ rs, Plain r.method)
    {r : HttpRequest} (hr : Plain r.method) :
    count ((Grouping.group HttpRequest.series rs).map counterEntry) r =
      (Grouping.group HttpRequest.series (rs ++ [r])).map counterEntry := by
  have hsame : ∀ g ∈ Grouping.group HttpRequest.series rs,
      g.1.key = r.series.key ↔ g.1 = r.series := fun g hg =>
    ⟨series_key_inj (plain_of_mem_group Series.method (fun _ => rfl) hplain hg) hr,
      congrArg Series.key⟩
  have hget := Table.get_map Prod.fst Prod.fst counterEntry hsame
  have hput := fun calls : List HttpRequest =>
    Table.put_map Prod.fst Prod.fst counterEntry (t := Grouping.group HttpRequest.series rs)
      (r := (r.series, calls)) hsame
  rw [Grouping.group_append, Grouping.add, ← hput]
  unfold count
  have hkey : labelKey r.method r.route r.statusCode = r.series.key := rfl
  simp only [hkey, hget, counterEntry]
  cases hold : Table.get Prod.fst (Grouping.group HttpRequest.series rs) r.series with
  | none => rfl
  | some g =>
    obtain ⟨s, calls⟩ := g
    have hs : s = r.series := Table.key_of_get Prod.fst hold
    simp only [Option.map_some, Option.getD_some, Series.counter, List.length_append,
      List.length_singleton, hs]
    rfl

theorem observe_group {rs : List HttpRequest} (hplain : ∀ r ∈ rs, Plain r.method)
    {r : HttpRequest} (hr : Plain r.method) :
    observe ((Grouping.group HttpRequest.endpoint rs).map histogramEntry) r =
      (Grouping.group HttpRequest.endpoint (rs ++ [r])).map histogramEntry := by
  have hsame : ∀ g ∈ Grouping.group HttpRequest.endpoint rs,
      g.1.key = r.endpoint.key ↔ g.1 = r.endpoint := fun g hg =>
    ⟨endpoint_key_inj (plain_of_mem_group Endpoint.method (fun _ => rfl) hplain hg) hr,
      congrArg Endpoint.key⟩
  have hget := Table.get_map Prod.fst Prod.fst histogramEntry hsame
  have hput := fun calls : List HttpRequest =>
    Table.put_map Prod.fst Prod.fst histogramEntry (t := Grouping.group HttpRequest.endpoint rs)
      (r := (r.endpoint, calls)) hsame
  rw [Grouping.group_append, Grouping.add, ← hput]
  unfold observe
  have hkey : latencyKey r.method r.route = r.endpoint.key := rfl
  simp only [hkey, hget, histogramEntry, histogram_append]
  cases hold : Table.get Prod.fst (Grouping.group HttpRequest.endpoint rs) r.endpoint with
  | none => rfl
  | some g =>
    obtain ⟨e, calls⟩ := g
    have he : e = r.endpoint := Table.key_of_get Prod.fst hold
    simp only [Option.map_some, Option.getD_some, he]
    rfl

theorem apply_request {op : Operation} {r : HttpRequest} (h : op.request = some r)
    (m : MetricsService) : apply m op = recordHttpRequest m r := by
  cases op <;> cases h
  rfl

/-- The other operations leave the two maps alone. -/
theorem apply_noRequest {op : Operation} (h : op.request = none) (m : MetricsService) :
    (apply m op).httpRequestCounters = m.httpRequestCounters ∧
      (apply m op).httpLatencyHistograms = m.httpLatencyHistograms := by
  cases op with
  | recordHttpRequest r => cases h
  | _ => exact ⟨rfl, rfl⟩

theorem requests_append (ops : List Operation) (op : Operation) :
    requests (ops ++ [op]) = requests ops ++ op.request.toList := by
  unfold requests
  rw [List.filterMap_append]
  cases hop : op.request <;> simp [hop]

theorem run_append (ops : List Operation) (op : Operation) :
    run (ops ++ [op]) = apply (run ops) op := by
  unfold run
  rw [List.foldl_append]
  rfl

/-- The maps after a run: the requests, gathered. -/
theorem maps_run {ops : List Operation} (hplain : ∀ r ∈ requests ops, Plain r.method) :
    (run ops).httpRequestCounters =
        (Grouping.group HttpRequest.series (requests ops)).map counterEntry ∧
      (run ops).httpLatencyHistograms =
        (Grouping.group HttpRequest.endpoint (requests ops)).map histogramEntry := by
  induction ops using List.reverseRecOn with
  | nil => exact ⟨rfl, rfl⟩
  | append_singleton ops op ih =>
    rw [requests_append] at hplain ⊢
    have hbefore : ∀ r ∈ requests ops, Plain r.method := fun r hr =>
      hplain r (List.mem_append_left _ hr)
    obtain ⟨hcounters, hhistograms⟩ := ih hbefore
    rw [run_append]
    cases hop : op.request with
    | none =>
      obtain ⟨hsame, hsame'⟩ := apply_noRequest hop (run ops)
      rw [hsame, hsame', Option.toList_none, List.append_nil]
      exact ⟨hcounters, hhistograms⟩
    | some r =>
      rw [hop] at hplain
      have hr : Plain r.method := hplain r (List.mem_append_right _ List.mem_cons_self)
      have hcount := count_group hbefore hr
      have hobserve := observe_group hbefore hr
      rw [← hcounters] at hcount
      rw [← hhistograms] at hobserve
      rw [apply_request hop]
      exact ⟨hcount, hobserve⟩

/-! ## The exposition -/

/-- A sample of one of these metrics. -/
def Line.ofMetrics (names : List String) : Line → Bool
  | .sample name _ _ => name ∈ names
  | .comment _ => false

def counterMetrics : List String := ["http_requests_total"]

def histogramMetrics : List String :=
  ["http_request_duration_seconds_bucket", "http_request_duration_seconds_sum",
    "http_request_duration_seconds_count"]

section Exposition

variable (print : ℚ → String) (m : MetricsService)

theorem filter_counterLines : (counterLines m).filter (Line.ofMetrics counterMetrics) =
    counterLines m := by
  rw [List.filter_eq_self]
  intro line hline
  obtain ⟨entry, -, rfl⟩ := List.mem_map.mp hline
  rfl

theorem filter_counterLines_histogram :
    (counterLines m).filter (Line.ofMetrics histogramMetrics) = [] := by
  rw [List.filter_eq_nil_iff]
  intro line hline
  obtain ⟨entry, -, rfl⟩ := List.mem_map.mp hline
  exact Bool.false_ne_true

/-- The lines of a histogram are samples of its three metrics. -/
theorem mem_histogramLines {line : Line} (h : line ∈ histogramLines print m) :
    ∃ name ∈ histogramMetrics, ∃ labels value, line = .sample name labels value := by
  obtain ⟨entry, -, hline⟩ := List.mem_flatMap.mp h
  rcases List.mem_append.mp hline with hbucket | hrest
  · obtain ⟨b, -, rfl⟩ := List.mem_map.mp hbucket
    exact ⟨_, by decide, _, _, rfl⟩
  · simp only [List.mem_cons, List.not_mem_nil, or_false] at hrest
    rcases hrest with rfl | rfl | rfl <;> exact ⟨_, by decide, _, _, rfl⟩

theorem filter_histogramLines :
    (histogramLines print m).filter (Line.ofMetrics histogramMetrics) =
      histogramLines print m := by
  rw [List.filter_eq_self]
  intro line hline
  obtain ⟨name, hname, labels, value, rfl⟩ := mem_histogramLines print m hline
  exact decide_eq_true hname

theorem filter_histogramLines_counter :
    (histogramLines print m).filter (Line.ofMetrics counterMetrics) = [] := by
  rw [List.filter_eq_nil_iff]
  intro line hline
  obtain ⟨name, hname, labels, value, rfl⟩ := mem_histogramLines print m hline
  have hother : ∀ name ∈ histogramMetrics, name ∉ counterMetrics := by decide
  simpa [Line.ofMetrics] using hother name hname

theorem filter_otherLines {names : List String} (hsubmission : "stellar_submission_total" ∉ names)
    (hconnections : "websocket_connections_active" ∉ names) (hdepth : "bull_queue_depth" ∉ names) :
    (otherLines m).filter (Line.ofMetrics names) = [] := by
  rw [List.filter_eq_nil_iff]
  intro line hline
  rcases List.mem_append.mp hline with hfixed | hqueue
  · simp only [List.mem_cons, List.not_mem_nil, or_false] at hfixed
    rcases hfixed with rfl | rfl | rfl | rfl | rfl | rfl | rfl | rfl | rfl <;>
      simp [Line.ofMetrics, hsubmission, hconnections]
  · obtain ⟨entry, -, rfl⟩ := List.mem_map.mp hqueue
    simpa [Line.ofMetrics] using hdepth

/-- The samples of the counter are the counters' lines. -/
theorem filter_lines_counter :
    (lines print m).filter (Line.ofMetrics counterMetrics) = counterLines m := by
  unfold lines
  simp only [List.filter_append, filter_counterLines, filter_histogramLines_counter,
    filter_otherLines m (by decide : _ ∉ counterMetrics) (by decide) (by decide)]
  simp [Line.ofMetrics]

/-- The samples of the histogram's metrics are the histograms' lines. -/
theorem filter_lines_histogram :
    (lines print m).filter (Line.ofMetrics histogramMetrics) = histogramLines print m := by
  unfold lines
  simp only [List.filter_append, filter_histogramLines, filter_counterLines_histogram,
    filter_otherLines m (by decide : _ ∉ histogramMetrics) (by decide) (by decide)]
  simp [Line.ofMetrics]

end Exposition

/-! ## The main result -/

/-- The calls of a combination of labels. -/
def Series.calls (s : Series) (rs : List HttpRequest) : ℕ := rs.countP fun r => r.series = s

def Endpoint.calls (e : Endpoint) (rs : List HttpRequest) : ℕ := rs.countP fun r => r.endpoint = e

/-- The calls that took at most `seconds`. -/
def Endpoint.callsWithin (e : Endpoint) (rs : List HttpRequest) (seconds : ℚ) : ℕ :=
  rs.countP fun r => r.endpoint = e ∧ r.durationSeconds ≤ seconds

/-- What there is to show of a combination of labels. -/
def Series.sample (s : Series) (rs : List HttpRequest) : Line :=
  .sample "http_requests_total" (counterLabels s.method s.route s.statusCode)
    (.integer (s.calls rs))

/-- What there is to show of a method and a route. -/
def Endpoint.samples (print : ℚ → String) (e : Endpoint) (rs : List HttpRequest) : List Line :=
  let labels := histogramLabels e.method e.route
  latencyBuckets.map (fun b => bucketLine labels (print b) (e.callsWithin rs b)) ++
    [bucketLine labels "+Inf" (e.calls rs),
     .sample "http_request_duration_seconds_sum" labels
      (.seconds ((Grouping.withKey HttpRequest.endpoint rs e).map HttpRequest.durationSeconds).sum),
     .sample "http_request_duration_seconds_count" labels (.integer (e.calls rs))]

theorem length_withKey {κ : Type} [DecidableEq κ] (key : HttpRequest → κ)
    (rs : List HttpRequest) (k : κ) :
    (Grouping.withKey key rs k).length = rs.countP fun r => key r = k :=
  List.countP_eq_length_filter.symm

theorem countP_withKey {κ : Type} [DecidableEq κ] (key : HttpRequest → κ)
    (rs : List HttpRequest) (k : κ) (p : HttpRequest → Prop) [DecidablePred p] :
    (Grouping.withKey key rs k).countP (fun r => p r) = rs.countP fun r => key r = k ∧ p r := by
  unfold Grouping.withKey
  rw [List.countP_filter]
  refine List.countP_congr fun r _ => ?_
  simp [and_comm]

/-- The keys of the groups are those that occur. -/
theorem mem_keys_group {κ : Type} [DecidableEq κ] (key : HttpRequest → κ) (rs : List HttpRequest)
    (k : κ) : k ∈ (Grouping.group key rs).map Prod.fst ↔ ∃ r ∈ rs, key r = k := by
  constructor
  · intro hk
    obtain ⟨g, hg, rfl⟩ := List.mem_map.mp hk
    exact ((Grouping.mem_group key).mp hg).1
  · intro hk
    exact List.mem_map.mpr ⟨(k, Grouping.withKey key rs k),
      (Grouping.mem_group key).mpr ⟨hk, rfl⟩, rfl⟩

theorem counterLines_run {ops : List Operation} (hplain : ∀ r ∈ requests ops, Plain r.method) :
    counterLines (run ops) = ((Grouping.group HttpRequest.series (requests ops)).map Prod.fst).map
      fun s => s.sample (requests ops) := by
  unfold counterLines
  rw [(maps_run hplain).1, List.map_map, List.map_map]
  refine List.map_congr_left fun g hg => ?_
  have hcalls := ((Grouping.mem_group HttpRequest.series).mp hg).2
  simp only [Function.comp_apply, counterEntry, Series.counter, Counter.line, Series.sample,
    Series.calls, hcalls, length_withKey]

theorem histogramLines_run (print : ℚ → String) {ops : List Operation}
    (hplain : ∀ r ∈ requests ops, Plain r.method) :
    histogramLines print (run ops) =
      ((Grouping.group HttpRequest.endpoint (requests ops)).map Prod.fst).flatMap fun e =>
        e.samples print (requests ops) := by
  unfold histogramLines
  rw [(maps_run hplain).2, List.flatMap_map, List.flatMap_map]
  refine List.flatMap_congr fun g hg => ?_
  have hcalls := ((Grouping.mem_group HttpRequest.endpoint).mp hg).2
  simp only [histogramEntry, Endpoint.histogram, Histogram.lines, Endpoint.samples,
    Endpoint.calls, Endpoint.callsWithin, List.map_map, hcalls, length_withKey,
    countP_withKey HttpRequest.endpoint]
  rfl

/-- The calls of an endpoint, by their statuses. -/
theorem sum_calls (rs : List HttpRequest) {series : List Series} (hnodup : series.Nodup)
    (hseries : ∀ s, s ∈ series ↔ ∃ r ∈ rs, r.series = s) (e : Endpoint) :
    ((series.filter fun s => s.endpoint = e).map fun s => s.calls rs).sum = e.calls rs := by
  have hperm : List.Perm series (rs.map HttpRequest.series).dedup := by
    rw [List.perm_ext_iff_of_nodup hnodup (List.nodup_dedup _)]
    intro s
    rw [hseries, List.mem_dedup, List.mem_map]
  have hcount : ∀ s : Series, s.calls rs = (rs.map HttpRequest.series).count s := by
    intro s
    rw [List.count_eq_countP, List.countP_map]
    rfl
  simp only [hcount]
  rw [((hperm.filter _).map _).sum_eq, List.sum_map_count_dedup_filter_eq_countP, List.countP_map]
  rfl

/-- More time, more calls. -/
theorem callsWithin_le (e : Endpoint) (rs : List HttpRequest) {b b' : ℚ} (h : b ≤ b') :
    e.callsWithin rs b ≤ e.callsWithin rs b' := by
  refine List.countP_mono_left fun r _ hr => ?_
  rw [decide_eq_true_eq] at hr ⊢
  exact ⟨hr.1, hr.2.trans h⟩

theorem callsWithin_le_calls (e : Endpoint) (rs : List HttpRequest) (b : ℚ) :
    e.callsWithin rs b ≤ e.calls rs := by
  refine List.countP_mono_left fun r _ hr => ?_
  rw [decide_eq_true_eq] at hr ⊢
  exact hr.1

theorem latencyBuckets_sorted : latencyBuckets.Pairwise (· < ·) := by
  unfold latencyBuckets
  norm_num

/-- **The metrics agree with the requests.** The exposition has one sample of
the counter for each combination of labels that occurred, with the number of
its calls, and one histogram for each method and route, the buckets of which
count the calls by their durations. -/
theorem metrics_consistent (print : ℚ → String) {ops : List Operation}
    (hplain : ∀ r ∈ requests ops, Plain r.method) :
    ∃ (series : List Series) (endpoints : List Endpoint),
      (series.Nodup ∧ ∀ s, s ∈ series ↔ ∃ r ∈ requests ops, r.series = s) ∧
      (endpoints.Nodup ∧ ∀ e, e ∈ endpoints ↔ ∃ r ∈ requests ops, r.endpoint = e) ∧
      (lines print (run ops)).filter (Line.ofMetrics counterMetrics) =
        (series.map fun s => s.sample (requests ops)) ∧
      (lines print (run ops)).filter (Line.ofMetrics histogramMetrics) =
        (endpoints.flatMap fun e => e.samples print (requests ops)) ∧
      ∀ e ∈ endpoints,
        (latencyBuckets.Pairwise fun b b' =>
          b < b' ∧ e.callsWithin (requests ops) b ≤ e.callsWithin (requests ops) b') ∧
        (∀ b ∈ latencyBuckets, e.callsWithin (requests ops) b ≤ e.calls (requests ops)) ∧
        e.calls (requests ops) =
          ((series.filter fun s => s.endpoint = e).map fun s => s.calls (requests ops)).sum := by
  have hseries := mem_keys_group HttpRequest.series (requests ops)
  have hnodup := Grouping.nodup_group HttpRequest.series (requests ops)
  refine ⟨_, _, ⟨hnodup, hseries⟩, ⟨Grouping.nodup_group HttpRequest.endpoint (requests ops),
    mem_keys_group HttpRequest.endpoint (requests ops)⟩, ?_, ?_, fun e _ => ⟨?_, ?_, ?_⟩⟩
  · rw [filter_lines_counter, counterLines_run hplain]
  · rw [filter_lines_histogram, histogramLines_run print hplain]
  · exact latencyBuckets_sorted.imp fun h => ⟨h, callsWithin_le e _ h.le⟩
  · exact fun b _ => callsWithin_le_calls e _ b
  · exact (sum_calls (requests ops) hnodup hseries e).symm

/-- A route that fails once, and another with a `|`. -/
def threeRequests : List Operation :=
  [.recordHttpRequest ⟨"GET", "/wallets", 200, 5⟩, .incrementStellarSuccess,
    .recordHttpRequest ⟨"GET", "/wallets", 500, 12000⟩,
    .recordHttpRequest ⟨"POST", "/a|b", 201, 100⟩]

/-- `String` of a nonnegative number of at most three decimals. -/
def printed (q : ℚ) : String :=
  let fraction := (List.leftpad 3 '0' (Nat.toDigits 10 ((1000 * q).num.natAbs % 1000))).rdropWhile
    (· = '0')
  String.ofList (Nat.toDigits 10 ((1000 * q).num.natAbs / 1000) ++
    if fraction = [] then [] else '.' :: fraction)

example : latencyBuckets.map printed =
    ["0.005", "0.01", "0.025", "0.05", "0.1", "0.25", "0.5", "1", "2.5", "5", "10"] := by
  decide +kernel

theorem metrics_consistent_three : ∃ series : List Series,
    ⟨"GET", "/wallets", 500⟩ ∈ series ∧ ⟨"POST", "/a|b", 201⟩ ∈ series ∧
      (lines printed (run threeRequests)).filter (Line.ofMetrics counterMetrics) =
        series.map fun s => s.sample (requests threeRequests) := by
  have hplain : ∀ r ∈ requests threeRequests, Plain r.method := by
    unfold Plain
    decide
  obtain ⟨series, -, ⟨-, hseries⟩, -, hlines, -⟩ := metrics_consistent printed hplain
  exact ⟨series, (hseries _).mpr (by decide), (hseries _).mpr (by decide), hlines⟩

end Metrics

end NexaFx
