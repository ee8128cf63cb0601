import TribeHub.Observability.HttpMetrics

/-! From the interceptor to the latency alert. The check scans the counts of single series, so
that it alerts where every series was slow by the count of the series listed last. -/
namespace TribeHub.Observability
open Threshold Transition

section Run

variable {render : Js.Number → String} (run : Run (metricsMachine render))

/-- What the request that the step ends is observed with, unless its status has no text. -/
def completedAt (j : Nat) : Option Observation :=
  match run.events[j]? with
  | some (.emit request emission seconds) =>
    ((run.state j).pending request).bind (fun found =>
      ((emissionStatus emission).print render).map (fun _ => ⟨⟨found.method,found.route⟩,seconds⟩))
  | _ => none

/-- The completed requests in the order of completion. -/
def completed (i : Nat) : List Observation := (List.range i).filterMap (completedAt run)

variable {run}

theorem observed_next {i : Nat} {event : MetricsEvent} (happens : run.Happens i event) :
    (run.state (i+1)).httpRequestDurationSeconds =
      (run.state i).httpRequestDurationSeconds ++ (completedAt run i).toList := by
  have next : run.state (i+1) = metricsNext render (run.state i) event := run.state_succ happens
  unfold completedAt
  rw [next,show run.events[i]? = some event from happens]
  cases event with
  | intercept request method route path => simp [metricsNext]
  | emit request emission seconds =>
    cases waiting : (run.state i).pending request with
    | none => simp [metricsNext,waiting]
    | some found =>
      cases printed : (emissionStatus emission).print render with
      | none => simp [metricsNext,waiting,metricsLabels,printed,MetricsState.record]
      | some status => simp [metricsNext,waiting,metricsLabels,printed,MetricsState.record]

theorem completed_run (run : Run (metricsMachine render)) (i : Nat) :
    (run.state i).httpRequestDurationSeconds = completed run i := by
  induction i with
  | zero => exact run.init_state.2.2
  | succ i ih =>
    unfold completed
    rw [List.range_succ,List.filterMap_append]
    rcases run.cases_at i with ⟨event,happens⟩ | idle
    · rw [observed_next happens,ih]
      cases found : completedAt run i <;> simp [completed,found]
    · have silent : completedAt run i = none := by simp [completedAt,idle]
      rw [run.state_idle idle,ih]
      simp [completed,silent]

end Run

theorem greater_upward {threshold : Js.Number} {low high : ℚ} (order : low ≤ high)
    (exceeds : Js.greater low threshold = true) : Js.greater high threshold = true := by
  cases threshold with
  | nan => exact exceeds
  | infinity => exact exceeds
  | negInfinity => exact exceeds
  | finite q =>
    simp only [Js.greater,decide_eq_true_eq] at exceeds ⊢
    exact lt_of_lt_of_le exceeds order

/-- Of no series alone have as many requests ended within the bound as 95 % of the last one's. -/
def SlowAt (order : List LabelPair) (last : LabelPair) (observations : List Observation)
    (bound : ℚ) : Prop :=
  ∀ pair ∈ order, countUpTo (series observations pair) bound <
    ((series observations last).length : ℚ) * (95/100)

theorem slowAt_iff {order : List LabelPair} {last : LabelPair} {observations : List Observation}
    {bound : ℚ} : SlowAt order last observations bound ↔
      ¬ReachedBySome order last observations bound := by
  simp [SlowAt,ReachedBySome]

section Check

variable {order : List LabelPair} {observations : List Observation} {metricsJson : List MetricJson}

theorem checkLatencyP95_nil (monitor : AppMonitor) (found : findMetric metricsJson
      "http_request_duration_seconds" = some ⟨"http_request_duration_seconds",[]⟩) :
    checkLatencyP95 monitor metricsJson = [] := by
  simp [checkLatencyP95,found]

theorem checkLatencyP95_spec (monitor : AppMonitor) {last : LabelPair}
    (ends : order.getLast? = some last) (observed : series observations last ≠ [])
    (found : findMetric metricsJson "http_request_duration_seconds" =
      some ⟨"http_request_duration_seconds",exportHistogram order observations⟩) :
    ∃ bound, IsFirst (ReachedBySome order last observations) upperBounds bound ∧
      checkLatencyP95 monitor metricsJson =
        if Js.greater (bound * 1000) monitor.latencyP95Ms = true then
          [⟨monitor.webhooks.ops,"app","latency_p95_ms",bound * 1000,monitor.latencyP95Ms,.ops⟩]
        else [] := by
  obtain ⟨bound,computed,first⟩ := computeP95Ms_spec ends observed
  have exported : (exportHistogram order observations).isEmpty = false := by
    cases values : exportHistogram order observations with
    | nil =>
      rw [values] at computed
      cases computed
    | cons value rest => rfl
  refine ⟨bound,first,?_⟩
  unfold checkLatencyP95
  rw [found]
  simp only [exported,computed,Bool.false_eq_true,if_false]

end Check

/-- When a check alerts, and of what: the requests are those that the interceptor completed, and
the registry may list their series in any order. -/
structure LatencyAlerted (monitor : AppMonitor) (observations : List Observation)
    (order : List LabelPair) (alerts : List Alert) : Prop where
  iff : alerts ≠ [] ↔ ∃ last, order.getLast? = some last ∧ ∃ late ∈ upperBounds,
    Js.greater (late * 1000) monitor.latencyP95Ms = true ∧
      ∀ bound ∈ upperBounds, bound < late → SlowAt order last observations bound
  one : alerts = [] ∨ ∃ bound ∈ upperBounds, alerts =
    [⟨monitor.webhooks.ops,"app","latency_p95_ms",bound * 1000,monitor.latencyP95Ms,.ops⟩]
  last_slow : ∀ alert ∈ alerts, ∃ last p95Ms, order.getLast? = some last ∧
    percentile95Ms (series observations last) = some p95Ms ∧ alert.payload.currentValue ≤ p95Ms ∧
      Js.greater p95Ms monitor.latencyP95Ms = true

/-- The check alerts exactly when, below some bound past the threshold, every series was slow by
the count of the series listed last; that series then really exceeds the threshold. -/
theorem latency_alerts {render : Js.Number → String} (monitor : AppMonitor)
    (run : Run (metricsMachine render)) (i : Nat) {order : List LabelPair}
    (lists : Lists order (completed run i)) {metricsJson : List MetricJson}
    (found : findMetric metricsJson "http_request_duration_seconds" =
      some ⟨"http_request_duration_seconds",
        exportHistogram order (run.state i).httpRequestDurationSeconds⟩) :
    LatencyAlerted monitor (completed run i) order (checkLatencyP95 monitor metricsJson) := by
  rw [completed_run run i] at found
  cases ends : order.getLast? with
  | none =>
    obtain rfl : order = [] := List.getLast?_eq_none_iff.mp ends
    rw [checkLatencyP95_nil monitor found]
    exact ⟨by simp,Or.inl rfl,by simp⟩
  | some last =>
    have counted : series (completed run i) last ≠ [] := lists.observed (List.mem_of_getLast? ends)
    obtain ⟨bound,first,checked⟩ := checkLatencyP95_spec monitor ends counted found
    have upward (low high : ℚ) (le : low ≤ high)
        (past : Js.greater (low * 1000) monitor.latencyP95Ms = true) :
        Js.greater (high * 1000) monitor.latencyP95Ms = true :=
      greater_upward (by linarith) past
    rw [checked]
    constructor
    · simp only [ends,Option.some.injEq,slowAt_iff,exists_eq_left']
      rw [← first.exceeds upward]
      split
      · rename_i exceeds
        simp [exceeds]
      · rename_i below
        simp [below]
    · split
      · exact Or.inr ⟨bound,first.member,rfl⟩
      · exact Or.inl rfl
    · intro alert member
      split at member
      · rename_i exceeds
        obtain rfl := List.mem_singleton.mp member
        obtain ⟨own,percentile,ofLast⟩ := percentile95Ms_spec counted
        -- what the last series alone reaches, some series reaches
        have later : bound ≤ own :=
          first.le_of_imp (fun _ reached => ⟨last,List.mem_of_getLast? ends,reached⟩) ofLast
        refine ⟨last,1000 * own,ends,percentile,by linarith,?_⟩
        exact greater_upward (by linarith) exceeds
      · cases member

/-- Four requests of two series; each series has two of them at once in flight. -/
def rushHour : Run (metricsMachine renderInteger) where
  start := ⟨fun _ => none,.empty,[]⟩
  events := [.intercept 0 "GET" (some "/api/v1/feed") "/api/v1/feed",
    .intercept 1 "POST" (some "/api/v1/auth/login") "/api/v1/auth/login",
    .intercept 2 "GET" (some "/api/v1/feed") "/api/v1/feed",.emit 2 (.next (.finite 200)) (1/10),
    .intercept 3 "POST" (some "/api/v1/auth/login") "/api/v1/auth/login",
    .emit 1 (.next (.finite 201)) 2,.emit 0 (.next (.finite 200)) 3,.emit 3 (.next (.finite 201)) 2]
  starts := quiet_initial renderInteger
  legal := ⟨rfl,rfl,rfl,⟨_,rfl⟩,rfl,⟨_,rfl⟩,⟨_,rfl⟩,⟨_,rfl⟩,trivial⟩

def feedPair : LabelPair := ⟨"GET",normaliseRoute "/api/v1/feed"⟩

def loginPair : LabelPair := ⟨"POST",normaliseRoute "/api/v1/auth/login"⟩

theorem rushHour_completed :
    completed rushHour 8 = [⟨feedPair,1/10⟩,⟨loginPair,2⟩,⟨feedPair,3⟩,⟨loginPair,2⟩] := rfl

theorem rushHour_series : series (completed rushHour 8) feedPair = [⟨feedPair,1/10⟩,⟨feedPair,3⟩] ∧
    series (completed rushHour 8) loginPair = [⟨loginPair,2⟩,⟨loginPair,2⟩] := by
  have apart : feedPair ≠ loginPair := by simp [feedPair,loginPair]
  simp [rushHour_completed,series,apart,apart.symm]

theorem rushHour_alerts : checkLatencyP95 (.fromEnv ⟨none,none,none⟩ none none none none)
    [⟨"http_request_duration_seconds",
      exportHistogram [feedPair,loginPair] (rushHour.state 8).httpRequestDurationSeconds⟩] ≠ [] := by
  obtain ⟨ofFeed,ofLogin⟩ := rushHour_series
  have lists : Lists [feedPair,loginPair] (completed rushHour 8) := by
    refine ⟨by simp [feedPair,loginPair],fun pair => ?_⟩
    simp [rushHour_completed,eq_comm]
    tauto
  refine (latency_alerts _ rushHour 8 lists rfl).iff.mpr
    ⟨loginPair,rfl,1,by simp [upperBounds],?_,?_⟩
  · have threshold : (AppMonitor.fromEnv ⟨none,none,none⟩ none none none none).latencyP95Ms =
        .finite 800 := rfl
    rw [threshold]
    norm_num [Js.greater]
  · intro bound member early pair listed
    have below : bound < 2 ∧ bound < 3 := ⟨by linarith,by linarith⟩
    simp only [List.mem_cons,List.not_mem_nil,or_false] at listed
    rcases listed with rfl | rfl
    · rw [ofFeed,ofLogin]
      by_cases quick : 1/10 ≤ bound
      · norm_num [countUpTo,List.countP_cons,below,quick]
      · norm_num [countUpTo,List.countP_cons,below,quick]
    · rw [ofLogin]
      simp [countUpTo,below]

end TribeHub.Observability
