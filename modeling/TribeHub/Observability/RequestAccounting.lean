import TribeHub.Observability.HttpMetrics

/-! From the interceptor to the 5xx alert: however the requests fall into series, the
check counts each completed request once, and by its recorded status. -/
namespace TribeHub.Observability
open Transition

def emissions (events : List MetricsEvent) : List Emission :=
  events.filterMap (fun event =>
    match event with
    | .intercept _ _ _ _ => none
    | .emit _ emission _ => some emission)

def Recorded (render : Js.Number → String) (emission : Emission) (code : Nat) : Prop :=
  (emissionStatus emission).print render = some (toString code)

def RequestLabels.values (labels : RequestLabels) : List (String × LabelValue) :=
  [("method",.text labels.method),("route",.text labels.route),("status_code",.text labels.statusCode)]

/-- The values of `http_requests_total` that the registry returns for its series in this order. -/
def requestValues (listed : List (RequestLabels × Nat)) : List MetricValue :=
  listed.map (fun (labels,count) => ⟨labels.values,count,none⟩)

def is5xx (statusCode : String) : Bool :=
  match Js.parseInt statusCode with
  | some code => 500 ≤ code
  | none => false

theorem is5xx_toString (code : Nat) : is5xx (toString code) = decide (500 ≤ code) := by
  unfold is5xx
  rw [Js.parseInt_toString]
  simp only [decide_eq_decide]
  omega

def countSeries (totals : ℚ × ℚ) (entry : RequestLabels × Nat) : ℚ × ℚ :=
  (totals.1 + entry.2,if is5xx entry.1.statusCode then totals.2 + entry.2 else totals.2)

theorem count5xx_series (listed : List (RequestLabels × Nat)) :
    count5xx (requestValues listed) = listed.foldl countSeries (0,0) := by
  unfold count5xx requestValues
  rw [List.foldl_map]
  congr 1
  funext totals entry
  obtain ⟨labels,count⟩ := entry
  have code : (labels.values.lookup "status_code").getD (.text "0") = .text labels.statusCode := rfl
  unfold countSeries is5xx
  simp only [code,LabelValue.parseInt]
  cases parsed : Js.parseInt labels.statusCode with
  | none => simp
  | some value => simp

theorem foldl_countSeries (listed : List (RequestLabels × Nat)) (totals : ℚ × ℚ) :
    listed.foldl countSeries totals =
      (totals.1 + (Tally.sumOf (fun _ => true) listed : ℚ),
        totals.2 + (Tally.sumOf (fun labels => is5xx labels.statusCode) listed : ℚ)) := by
  induction listed generalizing totals with
  | nil => simp [Tally.sumOf]
  | cons entry rest ih =>
    obtain ⟨labels,count⟩ := entry
    rw [List.foldl_cons,ih]
    cases failed : is5xx labels.statusCode with
    | false => simp [countSeries,Tally.sumOf,failed,add_assoc]
    | true => simp [countSeries,Tally.sumOf,failed,add_assoc]

theorem count5xx_requestValues (listed : List (RequestLabels × Nat)) :
    count5xx (requestValues listed) =
      ((Tally.sumOf (fun _ => true) listed : ℚ),
        (Tally.sumOf (fun labels => is5xx labels.statusCode) listed : ℚ)) := by
  rw [count5xx_series,foldl_countSeries,zero_add,zero_add]

theorem recordedStatuses_codes {render : Js.Number → String} {events : List MetricsEvent}
    {codes : List Nat} (recorded : List.Forall₂ (Recorded render) (emissions events) codes) :
    recordedStatuses render events = codes.map toString := by
  induction events generalizing codes with
  | nil =>
    cases recorded
    rfl
  | cons event rest ih =>
    cases event with
    | intercept request method route path => exact ih recorded
    | emit request emission seconds =>
      cases recorded with
      | cons status others =>
        simp only [recordedStatuses,List.filterMap_cons,List.map_cons]
        rw [status]
        exact congrArg (List.cons _) (ih others)

/-- What check5xxRate and the histogram say of the emissions recorded with these statuses. -/
structure RequestsAccounted (monitor : AppMonitor) (s : MetricsState) (codes : List Nat)
    (listed : List (RequestLabels × Nat)) (metricsJson : List MetricJson) : Prop where
  counts : count5xx (requestValues listed) = ((codes.length : ℚ),(codes.countP (500 ≤ ·) : ℚ))
  alerts : check5xxRate monitor metricsJson =
    if 0 < codes.length ∧
        Js.greater ((codes.countP (500 ≤ ·) : ℚ) / codes.length) monitor.rate5xxThreshold = true then
      [⟨monitor.webhooks.critical,"app","5xx_rate",roundTo4 ((codes.countP (500 ≤ ·) : ℚ) / codes.length),
        monitor.rate5xxThreshold,.critical⟩]
    else []
  pairs : ∀ pair : LabelPair, Tally.sumOf (fun labels => labels.pair = pair) listed =
    (series s.httpRequestDurationSeconds pair).length

section Accounting

variable {render : Js.Number → String} {s : MetricsState} {events : List MetricsEvent}
  {codes : List Nat} {listed : List (RequestLabels × Nat)}

theorem counts_of_accounts (accounts : Accounts render s events)
    (recorded : List.Forall₂ (Recorded render) (emissions events) codes)
    (order : listed.Perm s.httpRequestsTotal.entries) :
    count5xx (requestValues listed) = ((codes.length : ℚ),(codes.countP (500 ≤ ·) : ℚ)) := by
  have statuses := recordedStatuses_codes recorded
  have total := accounts.statuses (fun _ => true)
  have errors := accounts.statuses is5xx
  rw [statuses,List.countP_true,List.length_map] at total
  rw [statuses,List.countP_map] at errors
  have same : is5xx ∘ toString = fun code : Nat => decide (500 ≤ code) := by
    funext code
    exact is5xx_toString code
  rw [same] at errors
  rw [count5xx_requestValues,Tally.sumOf_perm _ order,Tally.sumOf_perm _ order,total,errors]

theorem alerts_of_counts (monitor : AppMonitor) {metricsJson : List MetricJson}
    (counts : count5xx (requestValues listed) = ((codes.length : ℚ),(codes.countP (500 ≤ ·) : ℚ)))
    (found : findMetric metricsJson "http_requests_total" =
      some ⟨"http_requests_total",requestValues listed⟩) :
    check5xxRate monitor metricsJson =
      if 0 < codes.length ∧
          Js.greater ((codes.countP (500 ≤ ·) : ℚ) / codes.length) monitor.rate5xxThreshold = true then
        [⟨monitor.webhooks.critical,"app","5xx_rate",
          roundTo4 ((codes.countP (500 ≤ ·) : ℚ) / codes.length),monitor.rate5xxThreshold,.critical⟩]
      else [] := by
  unfold check5xxRate
  rw [found]
  simp only [counts]
  by_cases none : codes.length = 0
  · simp [none]
  · have positive : 0 < codes.length := Nat.pos_of_ne_zero none
    have total : (codes.length : ℚ) ≠ 0 := Nat.cast_ne_zero.mpr none
    have nonempty : (requestValues listed).isEmpty = false := by
      cases listed with
      | nil => exact absurd (congrArg Prod.fst counts).symm total
      | cons entry rest => rfl
    simp only [nonempty,total,positive,Bool.false_eq_true,if_false,true_and]

end Accounting

/-- Whatever the order of completion and the series, the check counts the completed requests
and those recorded with a status of at least 500, and alerts on their quotient; and both
metrics count the same requests under each method and route. -/
theorem request_accounting {render : Js.Number → String} (monitor : AppMonitor)
    (run : Run (metricsMachine render)) (i : Nat) {codes : List Nat}
    (recorded : List.Forall₂ (Recorded render) (emissions (run.events.take i)) codes)
    {listed : List (RequestLabels × Nat)}
    (order : listed.Perm (run.state i).httpRequestsTotal.entries) {metricsJson : List MetricJson}
    (found : findMetric metricsJson "http_requests_total" =
      some ⟨"http_requests_total",requestValues listed⟩) :
    RequestsAccounted monitor (run.state i) codes listed metricsJson := by
  have accounts := accounts_run run i
  have counts := counts_of_accounts accounts recorded order
  refine ⟨counts,alerts_of_counts monitor counts found,fun pair => ?_⟩
  rw [Tally.sumOf_perm _ order]
  exact accounts.pairs pair

/-- Two requests that overlap, the later of which fails first. -/
def overlapping : Run (metricsMachine renderInteger) where
  start := ⟨fun _ => none,.empty,[]⟩
  events := [.intercept 0 "GET" (some "/api/v1/feed") "/api/v1/feed",
    .intercept 1 "GET" (some "/api/v1/feed") "/api/v1/feed",
    .emit 1 (.error (.httpException (.finite 503) none)) (1/10),.emit 0 (.next (.finite 200)) (3/10)]
  starts := quiet_initial renderInteger
  legal := ⟨rfl,rfl,⟨_,rfl⟩,⟨_,rfl⟩,trivial⟩

def quietMonitor : AppMonitor := .fromEnv ⟨none,none,none⟩ none none none none

theorem overlapping_accounted :
    RequestsAccounted quietMonitor (overlapping.state 4) [503,200]
      (overlapping.state 4).httpRequestsTotal.entries.reverse
      [⟨"http_requests_total",
        requestValues (overlapping.state 4).httpRequestsTotal.entries.reverse⟩] :=
  request_accounting quietMonitor overlapping 4 (.cons rfl (.cons rfl .nil)) (List.reverse_perm _) rfl

end TribeHub.Observability
