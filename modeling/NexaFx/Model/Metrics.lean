import NexaFx.Lib.Grouping

/-!
# HTTP metrics

`metrics/metrics.service.ts`: the two maps that `recordHttpRequest` keeps under
texts composed of its arguments, the other metrics, and the exposition. A `Map`
is a keyed list in the order of insertion. Durations are exact numbers; how
`String` prints a number is a parameter of the exposition.
-/

namespace NexaFx

namespace Metrics

structure Counter where
  value : ℕ
  labels : List (String × String)
  deriving DecidableEq

structure Histogram where
  sum : ℚ
  count : ℕ
  buckets : List (ℚ × ℕ)
  labels : List (String × String)
  deriving DecidableEq

structure MetricsService where
  httpRequestCounters : List (String × Counter)
  httpLatencyHistograms : List (String × Histogram)
  stellarSuccessTotal : ℕ
  stellarFailureTotal : ℕ
  activeWsConnections : ℤ
  bullQueueDepths : List (String × ℤ)

def latencyBuckets : List ℚ :=
  [5 / 1000, 10 / 1000, 25 / 1000, 50 / 1000, 100 / 1000, 250 / 1000, 500 / 1000, 1, 2500 / 1000,
    5, 10]

/-! ## Recording -/

structure HttpRequest where
  method : String
  route : String
  statusCode : ℕ
  durationMs : ℚ
  deriving DecidableEq

def labelKey (method route : String) (statusCode : ℕ) : String :=
  method ++ "|" ++ route ++ "|" ++ toString statusCode

def latencyKey (method route : String) : String := method ++ "|" ++ route

def counterLabels (method route : String) (statusCode : ℕ) : List (String × String) :=
  [("method", method), ("route", route), ("status_code", toString statusCode)]

def histogramLabels (method route : String) : List (String × String) :=
  [("method", method), ("route", route)]

def HttpRequest.durationSeconds (r : HttpRequest) : ℚ := r.durationMs / 1000

/-- The counter of the request goes up, or starts at 1. -/
def count (counters : List (String × Counter)) (r : HttpRequest) : List (String × Counter) :=
  let key := labelKey r.method r.route r.statusCode
  match Table.get Prod.fst counters key with
  | some (_, existing) =>
    Table.put Prod.fst (key, { existing with value := existing.value + 1 }) counters
  | none => Table.put Prod.fst (key, ⟨1, counterLabels r.method r.route r.statusCode⟩) counters

def emptyHistogram (method route : String) : Histogram :=
  ⟨0, 0, latencyBuckets.map fun b => (b, 0), histogramLabels method route⟩

def Histogram.observe (hist : Histogram) (durationSeconds : ℚ) : Histogram :=
  { hist with
    sum := hist.sum + durationSeconds
    count := hist.count + 1
    buckets := hist.buckets.map fun b => (b.1, if durationSeconds ≤ b.1 then b.2 + 1 else b.2) }

def observe (histograms : List (String × Histogram)) (r : HttpRequest) :
    List (String × Histogram) :=
  let key := latencyKey r.method r.route
  let hist := ((Table.get Prod.fst histograms key).map Prod.snd).getD
    (emptyHistogram r.method r.route)
  Table.put Prod.fst (key, hist.observe r.durationSeconds) histograms

def recordHttpRequest (m : MetricsService) (r : HttpRequest) : MetricsService :=
  { m with
    httpRequestCounters := count m.httpRequestCounters r
    httpLatencyHistograms := observe m.httpLatencyHistograms r }

/-- The calls of the service that record something. -/
inductive Operation where
  | recordHttpRequest (r : HttpRequest)
  | incrementStellarSuccess
  | incrementStellarFailure
  | setActiveWsConnections (count : ℤ)
  | setBullQueueDepth (queue : String) (depth : ℤ)

def apply (m : MetricsService) : Operation → MetricsService
  | .recordHttpRequest r => recordHttpRequest m r
  | .incrementStellarSuccess => { m with stellarSuccessTotal := m.stellarSuccessTotal + 1 }
  | .incrementStellarFailure => { m with stellarFailureTotal := m.stellarFailureTotal + 1 }
  | .setActiveWsConnections count => { m with activeWsConnections := count }
  | .setBullQueueDepth queue depth =>
    { m with bullQueueDepths := Table.put Prod.fst (queue, depth) m.bullQueueDepths }

/-- A service as it is constructed. -/
def fresh : MetricsService := ⟨[], [], 0, 0, 0, []⟩

/-! ## Exposition -/

inductive Value where
  | integer (n : ℤ)
  | seconds (q : ℚ)
  deriving DecidableEq

inductive Line where
  | comment (text : String)
  | sample (name : String) (labels : List (String × String)) (value : Value)
  deriving DecidableEq

section Exposition

variable (print : ℚ → String)

def Counter.line (counter : Counter) : Line :=
  .sample "http_requests_total" counter.labels (.integer counter.value)

/-- A bucket of `le` seconds. -/
def bucketLine (labels : List (String × String)) (le : String) (count : ℕ) : Line :=
  .sample "http_request_duration_seconds_bucket" (labels ++ [("le", le)]) (.integer count)

def Histogram.lines (hist : Histogram) : List Line :=
  hist.buckets.map (fun b => bucketLine hist.labels (print b.1) b.2) ++
    [bucketLine hist.labels "+Inf" hist.count,
     .sample "http_request_duration_seconds_sum" hist.labels (.seconds hist.sum),
     .sample "http_request_duration_seconds_count" hist.labels (.integer hist.count)]

def counterLines (m : MetricsService) : List Line :=
  m.httpRequestCounters.map fun entry => entry.2.line

def histogramLines (m : MetricsService) : List Line :=
  m.httpLatencyHistograms.flatMap fun entry => entry.2.lines print

/-- The metrics that have nothing to do with HTTP requests. -/
def otherLines (m : MetricsService) : List Line :=
  [.comment "# HELP stellar_submission_total Stellar transaction submissions",
   .comment "# TYPE stellar_submission_total counter",
   .sample "stellar_submission_total" [("result", "success")] (.integer m.stellarSuccessTotal),
   .sample "stellar_submission_total" [("result", "failure")] (.integer m.stellarFailureTotal),
   .comment "# HELP websocket_connections_active Active WebSocket connections",
   .comment "# TYPE websocket_connections_active gauge",
   .sample "websocket_connections_active" [] (.integer m.activeWsConnections),
   .comment "# HELP bull_queue_depth Bull queue waiting job count",
   .comment "# TYPE bull_queue_depth gauge"] ++
    m.bullQueueDepths.map fun entry =>
      .sample "bull_queue_depth" [("queue", entry.1)] (.integer entry.2)

def lines (m : MetricsService) : List Line :=
  [.comment "# HELP http_requests_total Total number of HTTP requests",
   .comment "# TYPE http_requests_total counter"] ++ counterLines m ++
  [.comment "# HELP http_request_duration_seconds HTTP request latency histogram",
   .comment "# TYPE http_request_duration_seconds histogram"] ++ histogramLines print m ++
  otherLines m

def formatLabels (labels : List (String × String)) : String :=
  String.intercalate "," (labels.map fun l => l.1 ++ "=\"" ++ l.2 ++ "\"")

def Value.text : Value → String
  | .integer n => toString n
  | .seconds q => print q

def Line.text : Line → String
  | .comment text => text
  | .sample name labels value =>
    if labels = [] then name ++ " " ++ value.text print
    else name ++ "\x7b" ++ formatLabels labels ++ "\x7d " ++ value.text print

def exposition (m : MetricsService) : String :=
  String.intercalate "\n" ((lines print m).map (Line.text print)) ++ "\n"

end Exposition

end Metrics

end NexaFx
