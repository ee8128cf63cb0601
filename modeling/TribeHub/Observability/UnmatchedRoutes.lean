import Mathlib.Data.Set.Finite.Lattice
import TribeHub.Library.Simulation
import TribeHub.Observability.HttpMetrics

/-! The route labels of all requests, those that match no route included. Nest runs
interceptors around the handlers of matched routes only, so a request that matches none
obtains no label, and the labels are those of the application's routes. -/
namespace TribeHub.Observability
open Text Transition

/-- What the router of Nest and Express finds for a method and a path: the path of one of
the application's routes, or nothing. -/
structure Router where
  routes : List String
  resolve : String → String → Option String
  registered : ∀ method path route, resolve method path = some route → route ∈ routes

/-- A request arrives and a guard may refuse it, or the handler of one emits. -/
inductive ServerEvent where
  | receive (request : Nat) (method path : String) (refused : Bool)
  | emit (request : Nat) (emission : Emission) (seconds : ℚ)

/-- Interceptors run after the router has found a handler and its guards have let the request
pass. Nest answers an unmatched request from its not-found handler. -/
def intercepted (router : Router) : ServerEvent → List MetricsEvent
  | .receive request method path refused =>
    match router.resolve method path with
    | some route => if refused then [] else [.intercept request method (some route) path]
    | none => []
  | .emit request emission seconds => [.emit request emission seconds]

def serverMachine (render : Js.Number → String) (router : Router) :
    Machine MetricsState ServerEvent where
  init := (metricsMachine render).init
  enabled s event := Legal (metricsMachine render) s (intercepted router event)
  next s event := final (metricsMachine render) s (intercepted router event)

section Runs

variable {render : Js.Number → String} {router : Router}

end Runs

/-- Every label in use is one of these: of requests in flight, of counters, of observations. -/
structure Labelled (labels : Set String) (s : MetricsState) : Prop where
  pending : ∀ request found, s.pending request = some found → found.route ∈ labels
  counted : ∀ entry ∈ s.httpRequestsTotal.entries, entry.1.route ∈ labels
  observed : ∀ observation ∈ s.httpRequestDurationSeconds, observation.labels.route ∈ labels

section Step

variable {render : Js.Number → String} {labels : Set String} {s : MetricsState}

theorem Labelled.record (labelled : Labelled labels s) {found : HttpRequest}
    (listed : found.route ∈ labels) (emission : Emission) (seconds : ℚ) :
    Labelled labels
      (s.record found (metricsLabels render found.method found.route emission) seconds) := by
  unfold metricsLabels
  cases printed : (emissionStatus emission).print render with
  | none => exact labelled
  | some status =>
    refine ⟨labelled.pending,fun entry present => ?_,fun observation present => ?_⟩
    · rcases Tally.mem_keys_bump (List.mem_map_of_mem present) with same | before
      · exact same ▸ listed
      · obtain ⟨old,listed,same⟩ := List.mem_map.mp before
        exact same ▸ labelled.counted old listed
    · rcases List.mem_append.mp present with before | last
      · exact labelled.observed observation before
      · obtain rfl := List.mem_singleton.mp last
        exact listed

theorem Labelled.next (labelled : Labelled labels s) {event : MetricsEvent}
    (listed : ∀ request method route path, event = .intercept request method route path →
      normaliseRoute (rawRoute route path) ∈ labels) :
    Labelled labels (metricsNext render s event) := by
  have waits : ∀ request found, (metricsNext render s event).pending request = some found →
      found.route ∈ labels := by
    intro request found waiting
    rcases pending_next waiting with before | ⟨method,route,path,same,rfl⟩
    · exact labelled.pending request found before
    · exact listed request method route path same
  cases event with
  | intercept request method route path => exact ⟨waits,labelled.counted,labelled.observed⟩
  | emit request emission seconds =>
    cases before : s.pending request with
    | none => simpa [metricsNext,before] using labelled
    | some found =>
      have recorded : Labelled labels (s.record found
          (metricsLabels render found.method found.route emission) seconds) :=
        labelled.record (labelled.pending request found before) emission seconds
      refine ⟨waits,?_,?_⟩
      · simpa [metricsNext,before] using recorded.counted
      · simpa [metricsNext,before] using recorded.observed

end Step

section Server

variable {render : Js.Number → String} {router : Router}

def Router.labels (router : Router) : Set String := {label | label ∈ router.routes.map normaliseRoute}

end Server

/-- The methods and paths of the controllers, under the prefix that main.ts sets. -/
def ROUTES : List (String × String) :=
  [("GET","/api/v1"),("GET","/api/v1/feed"),("GET","/api/v1/search"),("GET","/api/v1/health"),
    ("GET","/api/v1/_internal/:secret-metrics"),("POST","/api/v1/auth/register"),
    ("POST","/api/v1/auth/login"),("POST","/api/v1/auth/logout")]

/-- The router on paths that are written like their route. -/
def literalRouter : Router where
  routes := ROUTES.map Prod.snd
  resolve method path := if (method,path) ∈ ROUTES then some path else none
  registered := by
    intro method path route found
    by_cases listed : (method,path) ∈ ROUTES
    · rw [if_pos listed] at found
      obtain rfl := Option.some.inj found
      exact List.mem_map_of_mem listed
    · simp [listed] at found

def scannedEvents : List ServerEvent :=
  [.receive 0 "GET" "/api/v1/x" false,.receive 1 "GET" "/api/v1/feed" false,
    .receive 2 "GET" "/.env" false,.receive 3 "GET" "/api/v1/search" true,
    .receive 4 "POST" "/api/v1/xx" false,.emit 1 (.next (.finite 200)) (1/10)]

/-- A scanner asks for paths under a known prefix while the feed is read and a search refused. -/
def scanned : Run (serverMachine renderInteger literalRouter) where
  start := ⟨fun _ => none,.empty,[]⟩
  events := scannedEvents
  starts := quiet_initial renderInteger
  legal := ⟨trivial,⟨rfl,trivial⟩,trivial,trivial,trivial,⟨⟨_,rfl⟩,trivial⟩,trivial⟩

def UnderKnownPrefix (path : String) : Prop :=
  "/api/v1/".toList <+: path.toList ∨ "/admin/queues".toList <+: path.toList

/-- The segments of a path, each id taken as an id. -/
def pathShape (path : String) : List PathSegment := (segments '/' path.toList).map shape

def knownShapes (paths : Set String) : Set (List PathSegment) :=
  pathShape '' {path | path ∈ paths ∧ UnderKnownPrefix path}

def shapeLabel (shape : List PathSegment) : String :=
  .ofList (joined '/' [] (shape.map PathSegment.label))

theorem isKnown_iff_under (path : String) : isKnown path.toList = true ↔ UnderKnownPrefix path :=
  isKnown_iff path.toList

theorem known_joined {path : String} (under : UnderKnownPrefix path) : ∃ others,
    path.toList = joined '/' [] others ∧ ∀ segment ∈ others, '/' ∉ segment := by
  obtain ⟨first,others,split,plain,apart⟩ := exists_joined '/' path.toList
  have starts : ['/'] <+: path.toList := by
    rcases under with api | queues
    · exact List.IsPrefix.trans (by decide) api
    · exact List.IsPrefix.trans (by decide) queues
  cases first with
  | nil => exact ⟨others,split,apart⟩
  | cons c rest =>
    rw [split,joined_append,List.cons_append] at starts
    have same : '/' = c := (List.cons_prefix_cons.mp starts).1
    exact absurd (List.mem_cons.mpr (Or.inl same)) plain

theorem normaliseRoute_known {path : String} (under : UnderKnownPrefix path) :
    normaliseRoute path = shapeLabel (pathShape path) ∧
      segments '/' (normaliseRoute path).toList = (pathShape path).map PathSegment.label := by
  obtain ⟨others,split,apart⟩ := known_joined under
  have labels : (pathShape path).map PathSegment.label = others.map replaceId := by
    rw [pathShape,split,segments_joined List.not_mem_nil apart,List.map_map]
    apply List.map_congr_left
    intro segment present
    exact (replaceId_shape (apart segment present)).symm
  have plain : ∀ segment ∈ others.map replaceId, '/' ∉ segment := by
    intro segment present
    obtain ⟨source,listed,rfl⟩ := List.mem_map.mp present
    exact (replaceId_normal (apart source listed)).2
  have label : normaliseRoute path = .ofList (joined '/' [] (others.map replaceId)) := by
    rw [normaliseRoute_eq,if_pos ((isKnown_iff_under path).mpr under),split,
      replaceIds_joined List.not_mem_nil apart]
  refine ⟨by rw [label,shapeLabel,labels],?_⟩
  rw [label,labels,String.toList_ofList,segments_joined List.not_mem_nil plain]

theorem normaliseRoute_unknown {path : String} (outside : ¬UnderKnownPrefix path) :
    normaliseRoute path = "other" := by
  rw [normaliseRoute_eq,if_neg (fun known => outside ((isKnown_iff_under path).mp known))]

/-- Finitely many shapes have a given label, for each segment is kept or stands for an id. -/
theorem shapes_of_label_finite (label : List (List Char)) :
    {shape : List PathSegment | shape.map PathSegment.label = label}.Finite := by
  induction label with
  | nil => simp
  | cons segment rest ih =>
    have heads : {first : PathSegment | first.label = segment}.Finite := by
      apply ({.text segment,.id (segment.drop 3)} : Set PathSegment).toFinite.subset
      intro first same
      cases first with
      | text kept => exact Or.inl (congrArg PathSegment.text same)
      | id after =>
        have read : after = segment.drop 3 := by
          rw [← same]
          rfl
        exact Or.inr (congrArg PathSegment.id read)
    apply (heads.biUnion (fun first _ => ih.image (List.cons first))).subset
    intro shape same
    cases shape with
    | nil => simp at same
    | cons first others =>
      obtain ⟨here,there⟩ := List.cons.inj same
      exact Set.mem_biUnion here ⟨others,there,rfl⟩

/-- The labels of any set of raw paths are finitely many exactly when the paths under the known
prefixes have finitely many shapes: normaliseRoute bounds the labels of all other paths. -/
theorem image_finite_iff (paths : Set String) :
    (normaliseRoute '' paths).Finite ↔ (knownShapes paths).Finite := by
  constructor
  · intro finite
    -- the label of a known path is read back into finitely many shapes
    have fibers := finite.biUnion (fun label _ => shapes_of_label_finite (segments '/' label.toList))
    apply fibers.subset
    intro shape present
    obtain ⟨path,⟨listed,under⟩,rfl⟩ := present
    exact Set.mem_biUnion ⟨path,listed,rfl⟩ (normaliseRoute_known under).2.symm
  · intro finite
    apply ((finite.image shapeLabel).union (Set.finite_singleton "other")).subset
    intro label present
    obtain ⟨path,listed,rfl⟩ := present
    by_cases under : UnderKnownPrefix path
    · exact Or.inl ⟨_,⟨path,⟨listed,under⟩,rfl⟩,(normaliseRoute_known under).1.symm⟩
    · exact Or.inr (normaliseRoute_unknown under)

def scannerSegments (n : Nat) : List (List Char) :=
  ["api".toList,"v1".toList,'x' :: List.replicate n 'x']

def scannerPath (n : Nat) : String := .ofList (joined '/' [] (scannerSegments n))

theorem scannerPath_toList (n : Nat) : (scannerPath n).toList = joined '/' [] (scannerSegments n) :=
  String.toList_ofList

theorem scannerPath_under (n : Nat) : UnderKnownPrefix (scannerPath n) := by
  refine Or.inl ⟨'x' :: List.replicate n 'x',?_⟩
  rw [scannerPath_toList]
  simp [joined,scannerSegments]

theorem scannerSegments_kept (n : Nat) : (scannerSegments n).map replaceId = scannerSegments n := by
  have api : replaceId "api".toList = "api".toList := by decide
  have version : replaceId "v1".toList = "v1".toList := by decide
  have word : replaceId (['x'] ++ List.replicate n 'x') = ['x'] ++ List.replicate n 'x' :=
    replaceId_of_letter (by decide) ⟨'x',by decide⟩ (by simp)
  rw [List.singleton_append] at word
  simp only [scannerSegments,List.map_cons,List.map_nil,api,version,word]

theorem scannerPath_label (n : Nat) : normaliseRoute (scannerPath n) = scannerPath n := by
  have plain : ∀ segment ∈ scannerSegments n, '/' ∉ segment := by
    simp [scannerSegments]
  rw [normaliseRoute_eq,if_pos ((isKnown_iff_under _).mpr (scannerPath_under n)),scannerPath_toList,
    replaceIds_joined List.not_mem_nil plain,scannerSegments_kept]
  rfl

/-- Under `/api/v1/` every path is its own label, so that it is the router that bounds them. -/
theorem knownPaths_unbounded : ¬(normaliseRoute '' Set.univ).Finite := by
  intro finite
  have labels : Set.range scannerPath ⊆ normaliseRoute '' Set.univ := by
    intro path present
    obtain ⟨n,rfl⟩ := present
    exact ⟨scannerPath n,Set.mem_univ _,scannerPath_label n⟩
  have distinct : Function.Injective scannerPath := by
    intro n m same
    have texts := congrArg String.toList same
    rw [scannerPath_toList,scannerPath_toList] at texts
    simpa [joined,scannerSegments] using texts
  exact Set.infinite_range_of_injective distinct (finite.subset labels)

end TribeHub.Observability
