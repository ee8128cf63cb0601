import TribeHub.Observability.SecurityWindow

/-! Stale events that a check counts. Pruning stops at the first fresh timestamp, so a
stale one behind it stays; it shows unless as many fresh events are no longer stored. -/
namespace TribeHub.Observability
open Transition

def staleBehind (cutoff : Int) : List Int → Nat
  | [] => 0
  | timestamp :: rest =>
    if timestamp < cutoff then staleBehind cutoff rest
    else rest.countP (fun later => later < cutoff)

def freshCount (cutoff : Int) (list : List Int) : Nat := list.countP (fun timestamp => cutoff ≤ timestamp)

theorem pruned_count (cutoff : Int) (list : List Int) :
    (pruneTimestamps list cutoff).length = freshCount cutoff list + staleBehind cutoff list := by
  unfold pruneTimestamps freshCount
  induction list with
  | nil => rfl
  | cons timestamp rest ih =>
    by_cases stale : timestamp < cutoff
    · have old : ¬cutoff ≤ timestamp := by omega
      simp [stale,old,staleBehind,ih]
    · have fresh : cutoff ≤ timestamp := by omega
      have split : rest.length = _ :=
        List.length_eq_countP_add_countP (p := fun later => decide (cutoff ≤ later))
      simp only [decide_eq_true_eq,not_le] at split
      simp [stale,fresh,staleBehind]
      omega

theorem staleBehind_le (cutoff : Int) (list : List Int) :
    staleBehind cutoff list ≤ list.countP (fun timestamp => timestamp < cutoff) := by
  induction list with
  | nil => exact Nat.le_refl 0
  | cons timestamp rest ih =>
    by_cases stale : timestamp < cutoff
    · simp [staleBehind,stale]
      omega
    · simp [staleBehind,stale]

theorem staleBehind_suffix (cutoff : Int) {list whole : List Int} (suffix : list <:+ whole) :
    staleBehind cutoff list ≤ staleBehind cutoff whole := by
  obtain ⟨front,rfl⟩ := suffix
  induction front with
  | nil => exact Nat.le_refl _
  | cons timestamp front ih =>
    have bound := staleBehind_le cutoff (front ++ list)
    simp only [List.cons_append,staleBehind]
    split <;> omega

section Runs

variable {monitor : SecurityMonitor} (run : Run (securityMachine monitor))

def cutoffAt (i : Nat) : Int := (run.state i).now - windowMs

/-- The fresh events that the cap or an earlier check has dropped. -/
def freshDropped (kind : Kind) (i : Nat) : Nat :=
  freshCount (cutoffAt run i) (history run kind i) -
    freshCount (cutoffAt run i) ((run.state i).timestamps kind)

/-- No check reports more events than were recorded with a timestamp in its window. -/
def NeverStale : Prop :=
  ∀ i id, run.Happens i (.runCheck id) → ∃ check, (run.state (i+1)).checks id = some check ∧
    ∀ kind, check.count kind ≤ freshCount (cutoffAt run i) (history run kind i)

variable {run}

theorem stored_suffix (kind : Kind) (i : Nat) :
    (run.state i).timestamps kind <:+ history run kind i := by
  induction i with
  | zero =>
    rw [timestamps_empty]
    exact List.nil_suffix
  | succ i before =>
    rw [history_succ]
    cases listed run kind i with
    | recorded timestamp happens _ pushed =>
      have grown : (run.state i).timestamps kind ++ [timestamp.getD (run.state i).now] <:+
          history run kind i ++ [timestamp.getD (run.state i).now] := by
        obtain ⟨front,split⟩ := before
        exact ⟨front,by rw [← split,List.append_assoc]⟩
      rw [recordedAt_record happens,if_pos rfl,pushed]
      simp only [pushTimestamp]
      -- the cap drops from the front
      split
      · exact (List.drop_suffix _ _).trans grown
      · exact grown
    | pruned unrecorded _ pruned =>
      rw [unrecorded,List.append_nil,pruned]
      exact (List.dropWhile_suffix _).trans before
    | kept unrecorded _ same =>
      rw [unrecorded,List.append_nil,same]
      exact before

theorem check_count {i id : Nat} (happens : run.Happens i (.runCheck id)) : ∃ check,
    (run.state (i+1)).checks id = some check ∧ ∀ kind, check.count kind =
      freshCount (cutoffAt run i) ((run.state i).timestamps kind) +
        staleBehind (cutoffAt run i) ((run.state i).timestamps kind) := by
  obtain ⟨check,found,_,count⟩ := runCheck_begins monitor (run.state i) id
  rw [run.state_succ happens]
  exact ⟨check,found,fun kind => (count kind).trans (pruned_count _ _)⟩

theorem fresh_stored_le (kind : Kind) (i : Nat) :
    freshCount (cutoffAt run i) ((run.state i).timestamps kind) ≤
      freshCount (cutoffAt run i) (history run kind i) := (stored_suffix kind i).sublist.countP_le

/-- In every run, no check counts stale events too many exactly when before each check the
stale timestamps behind a fresh one are at most as many as the dropped fresh events. -/
theorem neverStale_iff (run : Run (securityMachine monitor)) :
    NeverStale run ↔ ∀ i id kind, run.Happens i (.runCheck id) →
      staleBehind (cutoffAt run i) ((run.state i).timestamps kind) ≤ freshDropped run kind i := by
  constructor
  · intro never i id kind happens
    obtain ⟨check,found,bound⟩ := never i id happens
    obtain ⟨same,begun,count⟩ := check_count happens
    obtain rfl := Option.some.inj (found.symm.trans begun)
    have total := bound kind
    have within : freshCount (cutoffAt run i) ((run.state i).timestamps kind) ≤ _ :=
      fresh_stored_le kind i
    rw [count kind] at total
    unfold freshDropped
    omega
  · intro condition i id happens
    obtain ⟨check,begun,count⟩ := check_count happens
    refine ⟨check,begun,fun kind => ?_⟩
    have within : freshCount (cutoffAt run i) ((run.state i).timestamps kind) ≤ _ :=
      fresh_stored_le kind i
    have few := condition i id kind happens
    unfold freshDropped at few
    rw [count kind]
    omega

/-- It is enough that no stale timestamp was recorded after a fresh one. -/
theorem neverStale_of_ordered (ordered : ∀ i id kind, run.Happens i (.runCheck id) →
    staleBehind (cutoffAt run i) (history run kind i) = 0) : NeverStale run := by
  intro i id happens
  obtain ⟨check,begun,count⟩ := check_count happens
  refine ⟨check,begun,fun kind => ?_⟩
  have behind : staleBehind (cutoffAt run i) ((run.state i).timestamps kind) ≤ _ :=
    staleBehind_suffix (cutoffAt run i) (stored_suffix kind i)
  rw [ordered i id kind happens] at behind
  rw [count kind,Nat.le_zero.mp behind,Nat.add_zero]
  exact fresh_stored_le kind i

end Runs

/-- A login that is recorded after a fresh one with a timestamp from long before. -/
def backdated : Run (securityMachine ⟨10,50,none⟩) where
  start := ⟨1000000,[],[],fun _ => none⟩
  events := [.record .failedLogin none,.record .failedLogin (some 0),.runCheck 0]
  starts := ⟨rfl,rfl,fun _ => rfl⟩
  legal := ⟨trivial,trivial,rfl,trivial⟩

theorem backdated_counted :
    ¬∀ monitor (run : Run (securityMachine monitor)), NeverStale run := by
  intro promised
  obtain ⟨check,found,bound⟩ := promised _ backdated 2 0 rfl
  have total := bound .failedLogin
  obtain rfl := Option.some.inj found
  exact absurd total (by decide)

end TribeHub.Observability
