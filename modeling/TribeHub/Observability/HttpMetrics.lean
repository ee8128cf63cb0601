import TribeHub.Library.Tally
import TribeHub.Library.Transition
import TribeHub.Observability.ErrorStatus
import TribeHub.Observability.LatencyP95
import TribeHub.Observability.RouteLabels

/-! HttpMetricsInterceptor as a machine of overlapping requests. An arrival obtains the
route label; the value or error that the handler emits counts the request and observes
its duration. -/
namespace TribeHub.Observability
open Transition

structure HttpRequest where
  method : String
  route : String

structure MetricsState where
  pending : Nat → Option HttpRequest
  httpRequestsTotal : Tally RequestLabels
  httpRequestDurationSeconds : List Observation

/-- `route` is the path of the matched route, and `path` that of the request. -/
inductive MetricsEvent where
  | intercept (request : Nat) (method : String) (route : Option String) (path : String)
  | emit (request : Nat) (emission : Emission) (seconds : ℚ)

def rawRoute (route : Option String) (path : String) : String := route.getD path

/-- The counter and the histogram of the callback in `tap`; it does neither where the
status cannot be made a string. -/
def MetricsState.record (s : MetricsState) (request : HttpRequest) (labels : Option RequestLabels)
    (seconds : ℚ) : MetricsState :=
  match labels with
  | none => s
  | some labels =>
    {s with
      httpRequestsTotal := s.httpRequestsTotal.inc labels
      httpRequestDurationSeconds :=
        s.httpRequestDurationSeconds ++ [⟨⟨request.method,request.route⟩,seconds⟩]}

def metricsNext (render : Js.Number → String) (s : MetricsState) : MetricsEvent → MetricsState
  | .intercept request method route path =>
    {s with pending :=
      Function.update s.pending request (some ⟨method,normaliseRoute (rawRoute route path)⟩)}
  | .emit request emission seconds =>
    match s.pending request with
    | none => s
    | some found =>
      {s.record found (metricsLabels render found.method found.route emission) seconds with
        pending := Function.update s.pending request none}

def MetricsEnabled (s : MetricsState) : MetricsEvent → Prop
  | .intercept request _ _ _ => s.pending request = none
  | .emit request _ _ => ∃ found, s.pending request = some found

def metricsMachine (render : Js.Number → String) : Machine MetricsState MetricsEvent where
  init s := (∀ request, s.pending request = none) ∧ s.httpRequestsTotal = .empty ∧
    s.httpRequestDurationSeconds = []
  enabled := MetricsEnabled
  next := metricsNext render

theorem quiet_initial (render : Js.Number → String) :
    (metricsMachine render).init ⟨fun _ => none,.empty,[]⟩ := ⟨fun _ => rfl,rfl,rfl⟩

def RequestLabels.pair (labels : RequestLabels) : LabelPair := ⟨labels.method,labels.route⟩

/-- The texts of the statuses that the emissions of a run are recorded with, in the order
of completion. -/
def recordedStatuses (render : Js.Number → String) (events : List MetricsEvent) : List String :=
  events.filterMap (fun event =>
    match event with
    | .intercept _ _ _ _ => none
    | .emit _ emission _ => (emissionStatus emission).print render)

structure Accounts (render : Js.Number → String) (s : MetricsState) (events : List MetricsEvent) :
    Prop where
  statuses : ∀ selects : String → Bool,
    Tally.sumOf (fun labels => selects labels.statusCode) s.httpRequestsTotal.entries =
      (recordedStatuses render events).countP selects
  pairs : ∀ pair : LabelPair,
    Tally.sumOf (fun labels => labels.pair = pair) s.httpRequestsTotal.entries =
      (series s.httpRequestDurationSeconds pair).length

section Step

variable {render : Js.Number → String} {s : MetricsState} {events : List MetricsEvent}

/-- One recorded emission adds one to a single series of each metric. -/
theorem Accounts.record (accounts : Accounts render s events) (found : HttpRequest) (request : Nat)
    (emission : Emission) (seconds : ℚ) :
    Accounts render
      (s.record found (metricsLabels render found.method found.route emission) seconds)
      (events ++ [.emit request emission seconds]) := by
  unfold metricsLabels
  cases printed : (emissionStatus emission).print render with
  | none =>
    have same : recordedStatuses render (events ++ [.emit request emission seconds]) =
        recordedStatuses render events := by
      simp [recordedStatuses,printed]
    exact ⟨fun selects => same ▸ accounts.statuses selects,accounts.pairs⟩
  | some status =>
    have grown : recordedStatuses render (events ++ [.emit request emission seconds]) =
        recordedStatuses render events ++ [status] := by
      simp [recordedStatuses,printed]
    constructor
    · intro selects
      simp only [Option.map_some,MetricsState.record,Tally.sumOf_inc,accounts.statuses,grown]
      simp [List.countP_append,List.countP_cons]
    · intro pair
      simp only [Option.map_some,MetricsState.record,Tally.sumOf_inc,accounts.pairs]
      by_cases same : (⟨found.method,found.route⟩ : LabelPair) = pair
      · simp [series,RequestLabels.pair,same]
      · simp [series,RequestLabels.pair,same]

theorem Accounts.next (accounts : Accounts render s events) {event : MetricsEvent}
    (enabled : MetricsEnabled s event) :
    Accounts render (metricsNext render s event) (events ++ [event]) := by
  cases event with
  | intercept request method route path =>
    have same : recordedStatuses render (events ++ [.intercept request method route path]) =
        recordedStatuses render events := by
      simp [recordedStatuses]
    exact ⟨fun selects => same ▸ accounts.statuses selects,accounts.pairs⟩
  | emit request emission seconds =>
    obtain ⟨found,waiting⟩ := enabled
    have recorded := accounts.record found request emission seconds
    simp only [metricsNext,waiting]
    exact ⟨recorded.statuses,recorded.pairs⟩

theorem pending_next {event : MetricsEvent} {request : Nat} {found : HttpRequest}
    (waiting : (metricsNext render s event).pending request = some found) :
    s.pending request = some found ∨ ∃ method route path,
      event = .intercept request method route path ∧
        found = ⟨method,normaliseRoute (rawRoute route path)⟩ := by
  cases event with
  | intercept arrived method route path =>
    by_cases same : request = arrived
    · subst same
      simp only [metricsNext,Function.update_self,Option.some.injEq] at waiting
      exact Or.inr ⟨method,route,path,rfl,waiting.symm⟩
    · exact Or.inl (by simpa [metricsNext,same] using waiting)
  | emit ended emission seconds =>
    refine Or.inl ?_
    cases before : s.pending ended with
    | none => simpa [metricsNext,before] using waiting
    | some old =>
      by_cases same : request = ended
      · simp [metricsNext,before,same] at waiting
      · simpa [metricsNext,before,same] using waiting

end Step

theorem accounts_run {render : Js.Number → String} (run : Run (metricsMachine render)) (i : Nat) :
    Accounts render (run.state i) (run.events.take i) := by
  refine run.induct_from 0 (fun i => Accounts render (run.state i) (run.events.take i)) ?_ ?_ ?_ i
    (Nat.zero_le i)
  · obtain ⟨_,counter,histogram⟩ := run.init_state
    constructor
    · intro selects
      rw [counter]
      rfl
    · intro pair
      rw [counter,histogram]
      rfl
  · intro i _ past same accounts
    have whole : run.events.take (i+1) = run.events.take i := by
      have bound := List.getElem?_eq_none_iff.mp past
      rw [List.take_of_length_le bound,List.take_of_length_le (Nat.le_succ_of_le bound)]
    rw [same,whole]
    exact accounts
  · intro i event _ happens same accounts
    obtain ⟨bound,equal⟩ := List.getElem?_eq_some_iff.mp happens
    rw [same,List.take_succ_eq_append_getElem bound,equal]
    exact accounts.next (run.enabled happens)

end TribeHub.Observability
