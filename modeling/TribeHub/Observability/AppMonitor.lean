import Mathlib.Data.List.Sort
import Mathlib.Data.Rat.Floor
import TribeHub.Observability.Alerts

/-! AppMonitorService: its settings and the four checks over the metrics registry, the
heap and Redis. -/
namespace TribeHub.Observability

/-- A label value of the registry export; `le` is a number for the finite bounds. -/
inductive LabelValue where
  | text (text : String)
  | number (q : ℚ)
  deriving DecidableEq

/-- `parseFloat` of a label; rendering a number as text and reading it back keeps it. -/
def LabelValue.parseFloat : LabelValue → Js.Number
  | .text label => Js.parseFloat label
  | .number q => .finite q

def LabelValue.parseInt : LabelValue → Option Int
  | .text label => Js.parseInt label
  | .number q => some (if q < 0 then -⌊-q⌋ else ⌊q⌋)

structure MetricValue where
  labels : List (String × LabelValue)
  value : ℚ
  metricName : Option String

structure MetricJson where
  name : String
  values : List MetricValue

structure AppMonitor where
  rate5xxThreshold : Js.Number
  latencyP95Ms : Js.Number
  memoryThreshold : Js.Number
  redisLatencyMs : Js.Number
  webhooks : Webhooks

def AppMonitor.fromEnv (webhooks : Webhooks) (rate5xx latencyP95 memory redisLatency : Option String) :
    AppMonitor where
  rate5xxThreshold := Js.numberOr (Js.parseFloat (rate5xx.getD "")) (5/100)
  latencyP95Ms := .finite (Js.intOr (Js.parseInt (latencyP95.getD "")) 800)
  memoryThreshold := Js.numberOr (Js.parseFloat (memory.getD "")) (9/10)
  redisLatencyMs := .finite (Js.intOr (Js.parseInt (redisLatency.getD "")) 50)
  webhooks := webhooks

/-- `Math.round(q * 10000) / 10000`. -/
def roundTo4 (q : ℚ) : ℚ := (⌊q * 10000 + 1/2⌋ : ℚ) / 10000

def findMetric (metricsJson : List MetricJson) (name : String) : Option MetricJson :=
  metricsJson.find? (fun metric => metric.name = name)

def count5xx (values : List MetricValue) : ℚ × ℚ :=
  values.foldl (fun (total,errors5xx) v =>
    let code := ((v.labels.lookup "status_code").getD (.text "0")).parseInt
    (total + v.value,
      match code with
      | some code => if 500 ≤ code then errors5xx + v.value else errors5xx
      | none => errors5xx)) (0,0)

def check5xxRate (monitor : AppMonitor) (metricsJson : List MetricJson) : List Alert :=
  match findMetric metricsJson "http_requests_total" with
  | none => []
  | some requestsMetric =>
    if requestsMetric.values.isEmpty then []
    else
      let (total,errors5xx) := count5xx requestsMetric.values
      if total = 0 then []
      else
        let rate := errors5xx / total
        if Js.greater rate monitor.rate5xxThreshold then
          [⟨monitor.webhooks.critical,"app","5xx_rate",roundTo4 rate,monitor.rate5xxThreshold,.critical⟩]
        else []

structure Bucket where
  le : ℚ
  count : ℚ
  deriving DecidableEq

/-- One pass of the loop in computeP95Ms: finite buckets are collected, and `totalCount`
is assigned, so that the last `_count` stays. -/
def collectBucket (collected : List Bucket × ℚ) (v : MetricValue) : List Bucket × ℚ :=
  let metricName := v.metricName.getD ""
  if Js.endsWith metricName "_bucket" then
    match ((v.labels.lookup "le").getD (.text "Infinity")).parseFloat with
    | .finite le => (collected.1 ++ [⟨le,v.value⟩],collected.2)
    | _ => collected
  else if Js.endsWith metricName "_count" then (collected.1,v.value)
  else collected

def collectBuckets (values : List MetricValue) : List Bucket × ℚ :=
  values.foldl collectBucket ([],0)

/-- `buckets.sort((a, b) => a.le - b.le)`, which is stable. -/
def sortBuckets (buckets : List Bucket) : List Bucket :=
  buckets.insertionSort (fun a b => a.le ≤ b.le)

def computeP95Ms (values : List MetricValue) : Option ℚ :=
  let (buckets,totalCount) := collectBuckets values
  match (sortBuckets buckets).getLast? with
  | none => none
  | some last =>
    if totalCount = 0 then none
    else
      let target := totalCount * (95/100)
      some ((((sortBuckets buckets).find? (fun bucket => target ≤ bucket.count)).getD last).le * 1000)

def checkLatencyP95 (monitor : AppMonitor) (metricsJson : List MetricJson) : List Alert :=
  match findMetric metricsJson "http_request_duration_seconds" with
  | none => []
  | some durationMetric =>
    if durationMetric.values.isEmpty then []
    else
      match computeP95Ms durationMetric.values with
      | none => []
      | some p95Ms =>
        if Js.greater p95Ms monitor.latencyP95Ms then
          [⟨monitor.webhooks.ops,"app","latency_p95_ms",p95Ms,monitor.latencyP95Ms,.ops⟩]
        else []

def checkMemory (monitor : AppMonitor) (heapUsed heapSizeLimit : ℚ) : List Alert :=
  let ratio := heapUsed / heapSizeLimit
  if Js.greater ratio monitor.memoryThreshold then
    [⟨monitor.webhooks.critical,"app","memory_heap_ratio",roundTo4 ratio,monitor.memoryThreshold,
      .critical⟩]
  else []

/-- AppMonitorService.checkRedisLatency: the latency in ms of the ping, `none` without a
client; a rejected ping is logged and skipped. -/
def checkRedisLatency (monitor : AppMonitor) (ping : Option (Except String Int)) : List Alert :=
  match ping with
  | none => []
  | some (.error _) => []
  | some (.ok latencyMs) =>
    if Js.greater latencyMs monitor.redisLatencyMs then
      [⟨monitor.webhooks.ops,"app","redis_latency_ms",latencyMs,monitor.redisLatencyMs,.ops⟩]
    else []

structure AppAnswers where
  metricsJson : Except String (List MetricJson)
  ping : Option (Except String Int)
  heapUsed : ℚ
  heapSizeLimit : ℚ
  fetch : Alert → Except String Nat

/-- AppMonitorService.runCheck: the three checks together, then the heap. -/
def AppMonitor.runCheck (monitor : AppMonitor) (answers : AppAnswers) :
    Except String (List Alert) := do
  let metricsJson ← answers.metricsJson
  let alerts := check5xxRate monitor metricsJson ++ checkLatencyP95 monitor metricsJson ++
    checkRedisLatency monitor answers.ping
  let _ ← sendAlerts alerts answers.fetch
  let memory := checkMemory monitor answers.heapUsed answers.heapSizeLimit
  let _ ← sendAlerts memory answers.fetch
  pure (alerts ++ memory)

/-- Only the registry can make a check reject. -/
theorem AppMonitor.runCheck_resolves (monitor : AppMonitor) (answers : AppAnswers) :
    (∃ alerts, monitor.runCheck answers = .ok alerts) ↔
      ∃ metricsJson, answers.metricsJson = .ok metricsJson := by
  unfold AppMonitor.runCheck
  cases read : answers.metricsJson with
  | error message => simp [bind,Except.bind]
  | ok metricsJson =>
    obtain ⟨first,sent⟩ := sendAlerts_resolves (check5xxRate monitor metricsJson ++
      checkLatencyP95 monitor metricsJson ++ checkRedisLatency monitor answers.ping) answers.fetch
    obtain ⟨second,last⟩ := sendAlerts_resolves
      (checkMemory monitor answers.heapUsed answers.heapSizeLimit) answers.fetch
    simp only [List.append_assoc] at sent
    simp [bind,Except.bind,sent,last,pure,Except.pure]

end TribeHub.Observability
