import Mathlib.Tactic.NormNum
import Mathlib.Tactic.Linarith
import TribeHub.Library.Threshold
import TribeHub.Observability.AppMonitor

/-! The 95th percentile that computeP95Ms reads out of the exported duration histogram.
Each (method, route) pair exports cumulative counts of its own; the scan compares the
counts of single series with the total of the series listed last. -/
namespace TribeHub.Observability
open Threshold

structure LabelPair where
  method : String
  route : String
  deriving DecidableEq

/-- `httpRequestDurationSeconds.observe({method, route}, seconds)`. -/
structure Observation where
  labels : LabelPair
  seconds : ℚ

def upperBounds : List ℚ :=
  [5/1000,10/1000,25/1000,50/1000,100/1000,250/1000,500/1000,1,2500/1000,5]

def countUpTo (observations : List Observation) (bound : ℚ) : ℚ :=
  observations.countP (fun observation => observation.seconds ≤ bound)

def series (observations : List Observation) (pair : LabelPair) : List Observation :=
  observations.filter (fun observation => observation.labels = pair)

def LabelPair.labels (pair : LabelPair) : List (String × LabelValue) :=
  [("method",.text pair.method),("route",.text pair.route)]

def exportSeries (observations : List Observation) (pair : LabelPair) : List MetricValue :=
  upperBounds.map (fun bound => ⟨("le",.number bound) :: pair.labels,countUpTo observations bound,
    some "http_request_duration_seconds_bucket"⟩) ++
  [⟨("le",.text "+Inf") :: pair.labels,observations.length,
      some "http_request_duration_seconds_bucket"⟩,
    ⟨pair.labels,(observations.map Observation.seconds).sum,some "http_request_duration_seconds_sum"⟩,
    ⟨pair.labels,observations.length,some "http_request_duration_seconds_count"⟩]

/-- What the registry returns when it lists its series in this order. -/
def exportHistogram (order : List LabelPair) (observations : List Observation) : List MetricValue :=
  order.flatMap (fun pair => exportSeries (series observations pair) pair)

structure Lists (order : List LabelPair) (observations : List Observation) : Prop where
  nodup : order.Nodup
  member : ∀ pair, pair ∈ order ↔ ∃ observation ∈ observations, observation.labels = pair

/-- The 95th percentile of all observations, in milliseconds: the least bound that 95 %
of them do not exceed, or the largest bound. -/
def percentile95Ms (observations : List Observation) : Option ℚ :=
  if observations.length = 0 then none
  else some (1000 * (upperBounds.find? (fun bound =>
    (observations.length : ℚ) * (95/100) ≤ countUpTo observations bound)).getD 5)

/-- Some series alone has 95 % of the count of the last series by then. -/
def ReachedBySome (order : List LabelPair) (last : LabelPair) (observations : List Observation)
    (bound : ℚ) : Prop :=
  ∃ pair ∈ order, ((series observations last).length : ℚ) * (95/100) ≤
    countUpTo (series observations pair) bound

def ReachedByAll (observations : List Observation) (bound : ℚ) : Prop :=
  (observations.length : ℚ) * (95/100) ≤ countUpTo observations bound

def SeriesAgree (order : List LabelPair) (observations : List Observation) : Prop :=
  ∀ last, order.getLast? = some last → ∀ bound ∈ upperBounds,
    (∃ higher ∈ upperBounds, bound < higher) →
      (ReachedBySome order last observations bound ↔ ReachedByAll observations bound)

theorem countUpTo_mono (observations : List Observation) {low high : ℚ} (order : low ≤ high) :
    countUpTo observations low ≤ countUpTo observations high := by
  unfold countUpTo
  have fewer : observations.countP (fun observation => decide (observation.seconds ≤ low)) ≤
      observations.countP (fun observation => decide (observation.seconds ≤ high)) := by
    apply List.countP_mono_left
    intro observation _ below
    simp only [decide_eq_true_eq] at below ⊢
    exact le_trans below order
  exact_mod_cast fewer

section Collect

theorem endsWith_bucket : Js.endsWith "http_request_duration_seconds_bucket" "_bucket" = true := by
  decide

theorem endsWith_sum : Js.endsWith "http_request_duration_seconds_sum" "_bucket" = false ∧
    Js.endsWith "http_request_duration_seconds_sum" "_count" = false := by
  decide

theorem endsWith_count : Js.endsWith "http_request_duration_seconds_count" "_bucket" = false ∧
    Js.endsWith "http_request_duration_seconds_count" "_count" = true := by
  decide

theorem parseFloat_plusInf : Js.parseFloat "+Inf" = .nan := by
  rfl

theorem collect_bounds (bounds : List ℚ) (observations : List Observation) (pair : LabelPair)
    (buckets : List Bucket) (total : ℚ) :
    (bounds.map (fun bound => (⟨("le",.number bound) :: pair.labels,countUpTo observations bound,
      some "http_request_duration_seconds_bucket"⟩ : MetricValue))).foldl collectBucket
        (buckets,total) =
      (buckets ++ bounds.map (fun bound => ⟨bound,countUpTo observations bound⟩),total) := by
  induction bounds generalizing buckets with
  | nil => simp
  | cons bound rest ih =>
    rw [List.map_cons,List.foldl_cons]
    have collected : collectBucket (buckets,total) ⟨("le",.number bound) :: pair.labels,
        countUpTo observations bound,some "http_request_duration_seconds_bucket"⟩ =
          (buckets ++ [⟨bound,countUpTo observations bound⟩],total) := by
      simp [collectBucket,endsWith_bucket,LabelValue.parseFloat]
    rw [collected,ih]
    simp

theorem collect_series (observations : List Observation) (pair : LabelPair) (buckets : List Bucket)
    (total : ℚ) : (exportSeries observations pair).foldl collectBucket (buckets,total) =
      (buckets ++ upperBounds.map (fun bound => ⟨bound,countUpTo observations bound⟩),
        (observations.length : ℚ)) := by
  unfold exportSeries
  rw [List.foldl_append,collect_bounds]
  simp [collectBucket,endsWith_bucket,endsWith_sum,endsWith_count,LabelValue.parseFloat,
    parseFloat_plusInf]

theorem collect_export (order : List LabelPair) (observations : List Observation)
    (buckets : List Bucket) (total : ℚ) :
    (exportHistogram order observations).foldl collectBucket (buckets,total) =
      (buckets ++ order.flatMap (fun pair =>
          upperBounds.map (fun bound => ⟨bound,countUpTo (series observations pair) bound⟩)),
        (order.getLast?.map (fun last => ((series observations last).length : ℚ))).getD total) := by
  induction order generalizing buckets total with
  | nil => simp [exportHistogram]
  | cons pair rest ih =>
    have split : exportHistogram (pair :: rest) observations =
        exportSeries (series observations pair) pair ++ exportHistogram rest observations := rfl
    rw [split,List.foldl_append,collect_series,ih,List.flatMap_cons,List.append_assoc]
    cases rest with
    | nil => simp
    | cons next rest =>
      obtain ⟨last,ends⟩ : ∃ last, (next :: rest).getLast? = some last :=
        ⟨_,List.getLast?_eq_some_getLast (List.cons_ne_nil next rest)⟩
      rw [List.getLast?_cons_cons,ends]
      simp

end Collect

theorem sortBuckets_mem {buckets : List Bucket} {bucket : Bucket} :
    bucket ∈ sortBuckets buckets ↔ bucket ∈ buckets :=
  (List.perm_insertionSort _ buckets).mem_iff

theorem sortBuckets_sorted (buckets : List Bucket) :
    (sortBuckets buckets).Pairwise (fun bucket later => bucket.le ≤ later.le) := by
  have total : Std.Total (fun a b : Bucket => a.le ≤ b.le) := ⟨fun a b => le_total a.le b.le⟩
  have trans : IsTrans Bucket (fun a b => a.le ≤ b.le) := ⟨fun _ _ _ => le_trans⟩
  exact List.pairwise_insertionSort _ buckets

theorem computeP95Ms_spec {order : List LabelPair} {observations : List Observation}
    {last : LabelPair} (ends : order.getLast? = some last)
    (observed : series observations last ≠ []) :
    ∃ bound, computeP95Ms (exportHistogram order observations) = some (bound * 1000) ∧
      IsFirst (ReachedBySome order last observations) upperBounds bound := by
  let buckets := order.flatMap (fun pair =>
    upperBounds.map (fun bound => (⟨bound,countUpTo (series observations pair) bound⟩ : Bucket)))
  have collected : collectBuckets (exportHistogram order observations) =
      (buckets,((series observations last).length : ℚ)) := by
    rw [collectBuckets,collect_export,ends]
    simp [buckets]
  have member (bucket : Bucket) : bucket ∈ sortBuckets buckets ↔ ∃ pair ∈ order,
      ∃ bound ∈ upperBounds, bucket = ⟨bound,countUpTo (series observations pair) bound⟩ := by
    rw [sortBuckets_mem]
    simp [buckets,eq_comm]
  have listed : last ∈ order := List.mem_of_getLast? ends
  have nonempty : sortBuckets buckets ≠ [] := by
    apply List.ne_nil_of_mem
    exact (member _).mpr ⟨last,listed,5,by simp [upperBounds],rfl⟩
  obtain ⟨final,top⟩ : ∃ final, (sortBuckets buckets).getLast? = some final :=
    ⟨_,List.getLast?_eq_some_getLast nonempty⟩
  have positive : ((series observations last).length : ℚ) ≠ 0 := by
    simpa using observed
  refine ⟨(((sortBuckets buckets).find? (fun bucket => decide
    (((series observations last).length : ℚ) * (95/100) ≤ bucket.count))).getD final).le,?_,?_⟩
  · simp only [computeP95Ms,collected,top,if_neg positive]
  · have known (bound : ℚ) : bound ∈ (sortBuckets buckets).map Bucket.le ↔ bound ∈ upperBounds := by
      constructor
      · intro inside
        obtain ⟨bucket,present,rfl⟩ := List.mem_map.mp inside
        obtain ⟨_,_,bound,known,rfl⟩ := (member bucket).mp present
        exact known
      · intro known
        exact List.mem_map.mpr ⟨_,(member _).mpr ⟨last,listed,bound,known,rfl⟩,rfl⟩
    have first := isFirst_find Bucket.le (fun bucket => decide
      (((series observations last).length : ℚ) * (95/100) ≤ bucket.count)) (sortBuckets buckets)
      (sortBuckets_sorted buckets) final top
    refine first.congr known (fun bound inside => ?_)
    constructor
    · intro reached
      obtain ⟨bucket,present,rfl,reached⟩ := reached
      obtain ⟨pair,shown,bound,_,rfl⟩ := (member bucket).mp present
      exact ⟨pair,shown,by simpa using reached⟩
    · intro reached
      obtain ⟨pair,shown,reached⟩ := reached
      have present := (member _).mpr ⟨pair,shown,bound,(known bound).mp inside,rfl⟩
      exact ⟨_,present,rfl,by simpa using reached⟩

theorem percentile95Ms_spec {observations : List Observation} (observed : observations ≠ []) :
    ∃ bound, percentile95Ms observations = some (1000 * bound) ∧
      IsFirst (ReachedByAll observations) upperBounds bound := by
  have filled : observations.length ≠ 0 := by simpa using observed
  refine ⟨_,by simp only [percentile95Ms,if_neg filled]; rfl,?_⟩
  have sorted : upperBounds.Pairwise (fun bound later => id bound ≤ id later) := by
    norm_num [upperBounds]
  have first := isFirst_find id (fun bound => decide
    ((observations.length : ℚ) * (95/100) ≤ countUpTo observations bound)) upperBounds sorted 5 rfl
  refine first.congr (fun bound => by simp) (fun bound inside => ?_)
  have inside : bound ∈ upperBounds := by simpa using inside
  simp [ReachedByAll,inside]

theorem reachedBySome_upward {order : List LabelPair} {last : LabelPair}
    {observations : List Observation} (low high : ℚ) (le : low ≤ high)
    (reached : ReachedBySome order last observations low) :
    ReachedBySome order last observations high := by
  obtain ⟨pair,listed,enough⟩ := reached
  exact ⟨pair,listed,le_trans enough (countUpTo_mono _ le)⟩

theorem reachedByAll_upward {observations : List Observation} (low high : ℚ) (le : low ≤ high)
    (reached : ReachedByAll observations low) : ReachedByAll observations high :=
  le_trans reached (countUpTo_mono observations le)

theorem percentile95Ms_perm {observations others : List Observation}
    (same : observations.Perm others) : percentile95Ms observations = percentile95Ms others := by
  have counts (bound : ℚ) : countUpTo observations bound = countUpTo others bound := by
    simp only [countUpTo,same.countP_eq]
  have sizes : observations.length = others.length := same.length_eq
  simp only [percentile95Ms,counts,sizes]

theorem Lists.unobserved {observations : List Observation} (lists : Lists [] observations) :
    observations = [] := by
  apply List.eq_nil_iff_forall_not_mem.mpr
  intro observation member
  have listed := (lists.member observation.labels).mpr ⟨observation,member,rfl⟩
  cases listed

theorem Lists.observed {order : List LabelPair} {observations : List Observation}
    (lists : Lists order observations) {pair : LabelPair} (listed : pair ∈ order) :
    series observations pair ≠ [] := by
  obtain ⟨observation,member,labels⟩ := (lists.member pair).mp listed
  exact List.ne_nil_of_mem (List.mem_filter.mpr ⟨member,by simpa using labels⟩)

theorem computeP95Ms_last {order : List LabelPair} {observations : List Observation}
    (lists : Lists order observations) {last : LabelPair} (ends : order.getLast? = some last) :
    computeP95Ms (exportHistogram order observations) = percentile95Ms observations ↔
      SeriesAgree order observations := by
  have counted : series observations last ≠ [] := lists.observed (List.mem_of_getLast? ends)
  have some_observed : observations ≠ [] := by
    rintro rfl
    exact counted rfl
  obtain ⟨bound,computed,first⟩ := computeP95Ms_spec ends counted
  obtain ⟨exact_bound,expected,all⟩ := percentile95Ms_spec some_observed
  have same_bound : computeP95Ms (exportHistogram order observations) =
      percentile95Ms observations ↔ IsFirst (ReachedByAll observations) upperBounds bound := by
    rw [computed,expected,Option.some.injEq,mul_comm]
    constructor
    · intro same
      obtain rfl : bound = exact_bound := by linarith
      exact all
    · intro also
      rw [also.unique all]
  rw [same_bound,first.agree reachedBySome_upward reachedByAll_upward]
  simp only [SeriesAgree,ends,Option.some.injEq,forall_eq']

theorem computeP95Ms_agreed {order : List LabelPair} {observations : List Observation}
    (lists : Lists order observations) (agree : SeriesAgree order observations) :
    computeP95Ms (exportHistogram order observations) = percentile95Ms observations := by
  cases ends : order.getLast? with
  | none =>
    obtain rfl : order = [] := List.getLast?_eq_none_iff.mp ends
    obtain rfl := lists.unobserved
    rfl
  | some last => exact (computeP95Ms_last lists ends).mpr agree

/-- Where the series agree, neither the order in which the registry lists them nor the order of the
requests matters. -/
theorem computeP95Ms_order {order reordered : List LabelPair} {observations others : List Observation}
    (same : observations.Perm others) (lists : Lists order observations) (relists : Lists reordered others)
    (agree : SeriesAgree order observations) (reagree : SeriesAgree reordered others) :
    computeP95Ms (exportHistogram order observations) = computeP95Ms (exportHistogram reordered others) :=
  calc computeP95Ms (exportHistogram order observations)
      _ = percentile95Ms observations := computeP95Ms_agreed lists agree
      _ = percentile95Ms others := percentile95Ms_perm same
      _ = computeP95Ms (exportHistogram reordered others) := (computeP95Ms_agreed relists reagree).symm

/-- The code computes the percentile exactly when the single series and all series
together reach their targets at the same bounds below the largest. -/
theorem computeP95Ms_iff (order : List LabelPair) (observations : List Observation)
    (lists : Lists order observations) :
    computeP95Ms (exportHistogram order observations) = percentile95Ms observations ↔
      SeriesAgree order observations := by
  constructor
  · intro same last ends
    exact (computeP95Ms_last lists ends).mp same last ends
  · exact computeP95Ms_agreed lists

def feed : LabelPair := ⟨"GET","/api/v1/feed"⟩

def login : LabelPair := ⟨"POST","/api/v1/auth/login"⟩

def users : LabelPair := ⟨"GET","/api/v1/users/:id"⟩

/-- Three series whose requests ended in turns. -/
def interleaved : List Observation :=
  [⟨login,1/10⟩,⟨feed,3/10⟩,⟨users,1/1000⟩,⟨login,2⟩,⟨feed,2⟩,⟨login,1/5⟩]

theorem interleaved_series : series interleaved feed = [⟨feed,3/10⟩,⟨feed,2⟩] ∧
    series interleaved users = [⟨users,1/1000⟩] ∧
    series interleaved login = [⟨login,1/10⟩,⟨login,2⟩,⟨login,1/5⟩] :=
  ⟨rfl,rfl,rfl⟩

theorem interleaved_agree : SeriesAgree [feed,users,login] interleaved := by
  intro last ends bound inside _
  obtain rfl : login = last := by simpa using ends
  obtain ⟨ofFeed,ofUsers,ofLogin⟩ := interleaved_series
  simp only [ReachedBySome,ReachedByAll,List.mem_cons,List.not_mem_nil,or_false,exists_eq_or_imp,
    exists_eq_left,ofFeed,ofUsers,ofLogin]
  -- neither has reached its target before the two seconds, both have from then on
  simp only [upperBounds,List.mem_cons,List.not_mem_nil,or_false] at inside
  rcases inside with rfl | rfl | rfl | rfl | rfl | rfl | rfl | rfl | rfl | rfl
  all_goals norm_num [countUpTo,interleaved,List.countP_cons]

theorem interleaved_p95 : computeP95Ms (exportHistogram [feed,users,login] interleaved) =
    percentile95Ms interleaved ∧ percentile95Ms interleaved = some 2500 := by
  have lists : Lists [feed,users,login] interleaved := by
    refine ⟨by decide,fun pair => ?_⟩
    simp [interleaved,eq_comm]
    tauto
  refine ⟨(computeP95Ms_iff _ _ lists).mpr interleaved_agree,?_⟩
  norm_num [percentile95Ms,upperBounds,countUpTo,interleaved,List.countP_cons]

def P95OfAll : Prop :=
  ∀ order observations, Lists order observations →
    computeP95Ms (exportHistogram order observations) = percentile95Ms observations

theorem p95_not_of_all : ¬P95OfAll := by
  intro promised
  have lists : Lists [feed,login] [⟨feed,4⟩,⟨login,1/1000⟩] := by
    refine ⟨by decide,fun pair => ?_⟩
    simp [eq_comm]
  have own : series [⟨feed,4⟩,⟨login,1/1000⟩] login = [⟨login,1/1000⟩] := by
    simp [series,feed,login]
  have counted : series [⟨feed,4⟩,⟨login,1/1000⟩] login ≠ [] := by
    rw [own]
    exact List.cons_ne_nil _ _
  have ends : [feed,login].getLast? = some login := rfl
  obtain ⟨bound,computed,first⟩ := computeP95Ms_spec ends counted
  have smallest : ∀ bound ∈ upperBounds, 5/1000 ≤ bound := by norm_num [upperBounds]
  have early : IsFirst (ReachedBySome [feed,login] login [⟨feed,4⟩,⟨login,1/1000⟩])
      upperBounds (5/1000) := by
    refine ⟨by simp [upperBounds],fun low member before => ?_,Or.inl ⟨login,by simp,?_⟩⟩
    · exact absurd before (not_lt.mpr (smallest low member))
    · rw [own]
      norm_num [countUpTo,List.countP_cons]
  obtain rfl := first.unique early
  obtain ⟨expected,percentile,all⟩ := percentile95Ms_spec (List.cons_ne_nil (⟨feed,4⟩ : Observation)
    [⟨login,1/1000⟩])
  have same := promised _ _ lists
  rw [computed,percentile,Option.some.injEq] at same
  obtain rfl : expected = 5/1000 := by linarith
  rcases all.reaches with reached | largest
  · norm_num [ReachedByAll,countUpTo,List.countP_cons] at reached
  · have top := largest 5 (by simp [upperBounds])
    norm_num at top

end TribeHub.Observability
