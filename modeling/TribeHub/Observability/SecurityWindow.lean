import Mathlib.Tactic.IntervalCases
import TribeHub.Library.Window
import TribeHub.Observability.SecurityMonitor

/-! The sliding window of SecurityMonitorService under a clock that never goes back.
Each list is the capped tail of the whole history since the last cutoff, so the next
check counts exactly the events of its own window. -/
namespace TribeHub.Observability
open Transition Window

section Runs

variable {monitor : SecurityMonitor} (run : Run (securityMachine monitor))

def recordedAt (kind : Kind) (j : Nat) : List Int :=
  match run.events[j]? with
  | some (.record other timestamp) =>
    if other = kind then [timestamp.getD (run.state j).now] else []
  | _ => []

def history (kind : Kind) (i : Nat) : List Int := (List.range i).flatMap (recordedAt run kind)

/-- The number that a check at position `i` has to report. -/
def windowCount (kind : Kind) (i : Nat) : Nat :=
  min maxTimestamps ((history run kind i).countP (fun timestamp =>
    (run.state i).now - windowMs ≤ timestamp))

def resumedAt (id j : Nat) : Bool :=
  match run.events[j]? with
  | some (.resume other) => other = id
  | _ => false

/-- How many alerts of the check that begins at `begun` have been sent before position `i`. -/
def resumes (id begun i : Nat) : Nat :=
  (List.range i).countP (fun j => begun < j ∧ resumedAt run id j)

/-- The clock does not go back, and events are stamped with the current time. -/
def Punctual : Prop :=
  ∀ i event, run.Happens i event →
    (∀ time, event = .clock time → (run.state i).now ≤ time) ∧
      ∀ kind timestamp, event = .record kind timestamp → timestamp = none

/-- The stored list is the capped tail of the history since some cutoff in the past. -/
structure Exact (kind : Kind) (i : Nat) : Prop where
  sorted : Sorted (history run kind i)
  past : ∀ timestamp ∈ history run kind i, timestamp ≤ (run.state i).now
  holds : ∃ start ≤ (run.state i).now - windowMs,
    Holds maxTimestamps start (history run kind i) ((run.state i).timestamps kind)

variable {run}

theorem history_succ (kind : Kind) (i : Nat) :
    history run kind (i+1) = history run kind i ++ recordedAt run kind i := by
  simp [history,List.range_succ,List.flatMap_append]

theorem recordedAt_record {kind other : Kind} {i : Nat} {timestamp : Option Int}
    (happens : run.Happens i (.record other timestamp)) :
    recordedAt run kind i = if other = kind then [timestamp.getD (run.state i).now] else [] := by
  have found : run.events[i]? = some (.record other timestamp) := happens
  simp only [recordedAt,found]

theorem recordedAt_other {kind : Kind} {i : Nat} (silent : ∀ other timestamp,
    run.events[i]? ≠ some (.record other timestamp)) : recordedAt run kind i = [] := by
  unfold recordedAt
  split
  · rename_i other timestamp found
    exact absurd found (silent other timestamp)
  · rfl

/-- What one position makes of the list of a kind: it records in it, prunes it or keeps it. -/
inductive Listed (run : Run (securityMachine monitor)) (kind : Kind) (i : Nat) : Prop
  | recorded (timestamp : Option Int) (happens : run.Happens i (.record kind timestamp))
      (clock : (run.state (i+1)).now = (run.state i).now)
      (pushed : (run.state (i+1)).timestamps kind =
        pushTimestamp ((run.state i).timestamps kind) (timestamp.getD (run.state i).now))
  | pruned (unrecorded : recordedAt run kind i = [])
      (clock : (run.state (i+1)).now = (run.state i).now)
      (pruned : (run.state (i+1)).timestamps kind =
        pruneTimestamps ((run.state i).timestamps kind) ((run.state i).now - windowMs))
  | kept (unrecorded : recordedAt run kind i = [])
      (clock : (run.state (i+1)).now = (run.state i).now ∨
        run.Happens i (.clock (run.state (i+1)).now))
      (same : (run.state (i+1)).timestamps kind = (run.state i).timestamps kind)

theorem listed_of_event {i : Nat} {event : SecurityEvent} (happens : run.Happens i event)
    (kind : Kind) : Listed run kind i := by
  have found : run.events[i]? = some event := happens
  have after := run.state_succ happens
  cases event with
  | clock time =>
    refine .kept (recordedAt_other (by simp [found])) (Or.inr ?_) ?_
    · rw [after]
      exact happens
    · rw [after]
      cases kind <;> rfl
  | record other timestamp =>
    have clock : (run.state (i+1)).now = (run.state i).now := by
      rw [after]
      exact (record_checks _ other timestamp).2
    by_cases equal : other = kind
    · subst other
      refine .recorded timestamp happens clock ?_
      rw [after]
      exact timestamps_record_same (run.state i) kind timestamp
    · refine .kept ?_ (Or.inl clock) ?_
      · rw [recordedAt_record happens,if_neg equal]
      · rw [after]
        exact record_other (run.state i) (Ne.symm equal) timestamp
  | runCheck check =>
    refine .pruned (recordedAt_other (by simp [found])) ?_ ?_
    · rw [after]
      rfl
    · rw [after]
      exact timestamps_runCheck (run.state i) kind check
  | resume check =>
    have moved : run.state (i+1) = nextSecurity monitor (run.state i) (.resume check) := after
    obtain ⟨clock,lists⟩ := resume_kept monitor (run.state i) check
    rw [← moved] at clock lists
    exact .kept (recordedAt_other (by simp [found])) (Or.inl clock) (lists kind)

theorem listed (run : Run (securityMachine monitor)) (kind : Kind) (i : Nat) : Listed run kind i := by
  rcases run.cases_at i with ⟨event,happens⟩ | idle
  · exact listed_of_event happens kind
  · have same := run.state_idle idle
    exact .kept (recordedAt_other (by simp [idle])) (Or.inl (by rw [same])) (by rw [same])

theorem timestamps_empty (run : Run (securityMachine monitor)) (kind : Kind) :
    (run.state 0).timestamps kind = [] := by
  obtain ⟨failedLogin,invalidToken,_⟩ := run.init_state
  cases kind with
  | failedLogin => exact failedLogin
  | invalidToken => exact invalidToken

theorem Exact.kept {kind : Kind} {i : Nat} (exact_before : Exact run kind i)
    (unrecorded : recordedAt run kind i = []) (elapsed : (run.state i).now ≤ (run.state (i+1)).now)
    (same : (run.state (i+1)).timestamps kind = (run.state i).timestamps kind) :
    Exact run kind (i+1) := by
  have history_same : history run kind (i+1) = history run kind i := by
    rw [history_succ,unrecorded,List.append_nil]
  obtain ⟨start,bound,holds⟩ := exact_before.holds
  refine ⟨history_same ▸ exact_before.sorted,fun timestamp member => ?_,start,by omega,?_⟩
  · rw [history_same] at member
    exact le_trans (exact_before.past timestamp member) elapsed
  · rw [history_same,same]
    exact holds

theorem Exact.recorded {kind : Kind} {i : Nat} (exact_before : Exact run kind i)
    (recorded : recordedAt run kind i = [(run.state i).now])
    (clock : (run.state (i+1)).now = (run.state i).now)
    (pushed : (run.state (i+1)).timestamps kind =
      pushTimestamp ((run.state i).timestamps kind) (run.state i).now) :
    Exact run kind (i+1) := by
  obtain ⟨start,bound,holds⟩ := exact_before.holds
  have inside : start ≤ (run.state i).now := by
    simp only [windowMs] at bound
    omega
  refine ⟨?_,?_,start,by omega,?_⟩
  · rw [history_succ,recorded,Sorted,List.pairwise_append]
    refine ⟨exact_before.sorted,List.pairwise_singleton _ _,fun timestamp member latest same => ?_⟩
    rw [List.mem_singleton.mp same]
    exact exact_before.past timestamp member
  · intro timestamp member
    rw [history_succ,recorded] at member
    rw [clock]
    rcases List.mem_append.mp member with old | new
    · exact exact_before.past timestamp old
    · exact le_of_eq (List.mem_singleton.mp new)
  · rw [history_succ,recorded,pushed]
    have grown := holds.push inside
    rw [← cut_eq_rtake] at grown
    exact grown

theorem Exact.pruned {kind : Kind} {i : Nat} (exact_before : Exact run kind i)
    (unrecorded : recordedAt run kind i = []) (clock : (run.state (i+1)).now = (run.state i).now)
    (pruned : (run.state (i+1)).timestamps kind =
      pruneTimestamps ((run.state i).timestamps kind) ((run.state i).now - windowMs)) :
    Exact run kind (i+1) := by
  have history_same : history run kind (i+1) = history run kind i := by
    rw [history_succ,unrecorded,List.append_nil]
  obtain ⟨start,bound,holds⟩ := exact_before.holds
  refine ⟨history_same ▸ exact_before.sorted,?_,(run.state i).now - windowMs,by omega,?_⟩
  · rw [history_same,clock]
    exact exact_before.past
  · rw [history_same,pruned]
    exact holds.prune exact_before.sorted bound

theorem exact_run (punctual : Punctual run) (kind : Kind) (i : Nat) : Exact run kind i := by
  induction i with
  | zero =>
    refine ⟨List.Pairwise.nil,by simp [history],_,le_refl _,?_⟩
    rw [timestamps_empty]
    simp [Holds,history,since]
  | succ i before =>
    cases listed run kind i with
    | recorded timestamp happens clock pushed =>
      obtain rfl := (punctual i _ happens).2 kind timestamp rfl
      have stamped : recordedAt run kind i = [(run.state i).now] := by
        rw [recordedAt_record happens,if_pos rfl]
        rfl
      exact before.recorded stamped clock pushed
    | pruned unrecorded clock pruned => exact before.pruned unrecorded clock pruned
    | kept unrecorded clock same =>
      have forward : (run.state i).now ≤ (run.state (i+1)).now := by
        rcases clock with equal | moved
        · exact le_of_eq equal.symm
        · exact (punctual i _ moved).1 _ rfl
      exact before.kept unrecorded forward same

theorem pruned_length (punctual : Punctual run) (kind : Kind) (i : Nat) :
    (pruneTimestamps ((run.state i).timestamps kind) ((run.state i).now - windowMs)).length =
      windowCount run kind i := by
  have exact_before := exact_run punctual kind i
  obtain ⟨start,bound,holds⟩ := exact_before.holds
  exact (holds.prune exact_before.sorted bound).length_eq

theorem resumes_begun (id begun : Nat) : resumes run id begun (begun+1) = 0 := by
  apply List.countP_eq_zero.mpr
  intro j inside
  have bound := List.mem_range.mp inside
  simp only [decide_eq_true_eq]
  omega

theorem resumes_succ {id begun i : Nat} (later : begun < i) :
    resumes run id begun (i+1) = resumes run id begun i + if resumedAt run id i then 1 else 0 := by
  simp [resumes,List.range_succ,List.countP_append,List.countP_singleton,later]

theorem resumedAt_resume {id other i : Nat} (happens : run.Happens i (.resume other)) :
    resumedAt run id i = decide (other = id) := by
  have found : run.events[i]? = some (.resume other) := happens
  simp only [resumedAt,found]

theorem resumedAt_other {id i : Nat} (silent : ∀ other, run.events[i]? ≠ some (.resume other)) :
    resumedAt run id i = false := by
  unfold resumedAt
  split
  · rename_i other found
    exact absurd found (silent other)
  · rfl

theorem reports_run (punctual : Punctual run) {begun id : Nat}
    (begins : run.Happens begun (.runCheck id)) : ∀ i, begun + 1 ≤ i →
      ∃ check, (run.state i).checks id = some check ∧ check.Handed monitor (resumes run id begun i) ∧
        ∀ kind, check.count kind = windowCount run kind begun := by
  apply run.induct_from (begun+1)
  · rw [run.state_succ begins,resumes_begun]
    obtain ⟨check,found,handed,count⟩ := runCheck_begins monitor (run.state begun) id
    exact ⟨check,found,handed,fun kind => (count kind).trans (pruned_length punctual kind begun)⟩
  · intro i later idle same before
    rw [same,resumes_succ later,resumedAt_other (by simp [idle])]
    exact before
  · intro i event later happens same before
    have event_at : run.events[i]? = some event := happens
    obtain ⟨check,found,handed,count⟩ := before
    rw [same,resumes_succ later]
    cases event with
    | clock time =>
      rw [resumedAt_other (by simp [event_at])]
      exact ⟨check,found,handed,count⟩
    | record kind timestamp =>
      rw [resumedAt_other (by simp [event_at])]
      refine ⟨check,?_,handed,count⟩
      exact (congrFun (record_checks (run.state i) kind timestamp).1 id).trans found
    | runCheck other =>
      have unused : (run.state i).checks other = none := run.enabled happens
      have distinct : id ≠ other := by
        intro equal
        subst equal
        rw [unused] at found
        contradiction
      rw [resumedAt_other (by simp [event_at])]
      refine ⟨check,?_,handed,count⟩
      exact (Function.update_of_ne distinct ..).trans found
    | resume other =>
      rw [resumedAt_resume happens]
      by_cases own : other = id
      · subst own
        refine ⟨check.resume monitor,resume_own found,?_,fun kind => ?_⟩
        · simpa using handed.resume
        · rw [check.resume_count]
          exact count kind
      · refine ⟨check,(resume_other (Ne.symm own)).trans found,?_,count⟩
        simpa [own] using handed

end Runs

/-- Two failures of each kind are alerted; the next check still counts the later ones. -/
def logins : Run (securityMachine ⟨1,1,some "https://discord"⟩) where
  start := ⟨0,[],[],fun _ => none⟩
  events := [.record .failedLogin none,.record .invalidToken none,.clock 1000,.record .failedLogin none,
    .record .invalidToken none,.runCheck 0,.record .failedLogin none,.resume 0,.resume 0,
    .clock 300500,.runCheck 1,.resume 1]
  starts := ⟨rfl,rfl,fun _ => rfl⟩
  legal := ⟨trivial,trivial,trivial,trivial,trivial,rfl,trivial,trivial,trivial,trivial,rfl,trivial,
    trivial⟩

end TribeHub.Observability
