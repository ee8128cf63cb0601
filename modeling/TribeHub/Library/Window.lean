import Mathlib.Data.List.DropRight
import Mathlib.Data.List.TakeWhile
import Mathlib.Order.Lattice

/-! A capped suffix of a growing history. Dropping old entries from the front keeps
the newest ones of a window, as long as the history is sorted. -/
namespace Window

variable {α : Type*} [LinearOrder α]

def since (start : α) (history : List α) : List α := history.filter (fun x => start ≤ x)

/-- The list holds the newest `cap` entries of the window that begins at `start`. -/
def Holds (cap : Nat) (start : α) (history list : List α) : Prop :=
  list = (since start history).rtake cap

abbrev Sorted (history : List α) : Prop := history.Pairwise (fun x later => x ≤ later)

section Capped

variable {β : Type*}

theorem length_rtake (cap : Nat) (list : List β) : (list.rtake cap).length = min cap list.length := by
  simp only [List.rtake,List.length_drop]
  omega

theorem cut_eq_rtake (cap : Nat) (list : List β) :
    (if list.length > cap then list.drop (list.length - cap) else list) = list.rtake cap := by
  unfold List.rtake
  split
  · rfl
  · rename_i fits
    rw [Nat.sub_eq_zero_of_le (Nat.le_of_not_lt fits),List.drop_zero]

theorem rtake_append (cap : Nat) (front back : List β) :
    (front ++ back).rtake cap = front.rtake (cap - back.length) ++ back.rtake cap := by
  simp [List.rtake_eq_reverse_take_reverse,List.take_append]

theorem rtake_rtake {fewer cap : Nat} (le : fewer ≤ cap) (list : List β) :
    (list.rtake cap).rtake fewer = list.rtake fewer := by
  simp [List.rtake_eq_reverse_take_reverse,List.take_take,Nat.min_eq_left le]

theorem rtake_concat_rtake (cap : Nat) (list : List β) (x : β) :
    (list.rtake cap ++ [x]).rtake cap = (list ++ [x]).rtake cap := by
  rw [rtake_append,rtake_append cap list [x],rtake_rtake (Nat.sub_le cap _)]

end Capped

theorem since_append (start : α) (history : List α) (x : α) :
    since start (history ++ [x]) = since start history ++ if start ≤ x then [x] else [] := by
  simp [since,List.filter_append,List.filter_singleton]

theorem since_since {start later : α} (le : start ≤ later) (history : List α) :
    since later (since start history) = since later history := by
  simp only [since,List.filter_filter]
  apply List.filter_congr
  intro x _
  simp only [Bool.and_eq_decide,decide_eq_decide,decide_eq_true_eq]
  exact ⟨fun both => both.1,fun after => ⟨after,le_trans le after⟩⟩

/-- On a sorted history the front scan drops exactly what is before the start. -/
theorem sorted_split {history : List α} (sorted : Sorted history) (start : α) :
    ∃ old, history = old ++ since start history ∧ ∀ x ∈ old, x < start := by
  induction history with
  | nil => exact ⟨[],rfl,by simp⟩
  | cons x rest ih =>
    obtain ⟨first,ordered⟩ := List.pairwise_cons.mp sorted
    rcases lt_or_ge x start with before | after
    · obtain ⟨old,split,early⟩ := ih ordered
      refine ⟨x :: old,?_,?_⟩
      · have dropped : since start (x :: rest) = since start rest := by
          simp [since,not_le.mpr before]
        rw [dropped,List.cons_append,← split]
      · intro y member
        rcases List.mem_cons.mp member with rfl | inside
        · exact before
        · exact early y inside
    · refine ⟨[],?_,by simp⟩
      have all : ∀ y ∈ x :: rest, start ≤ y := by
        intro y member
        rcases List.mem_cons.mp member with rfl | inside
        · exact after
        · exact le_trans after (first y inside)
      rw [List.nil_append]
      exact (List.filter_eq_self.mpr (fun y member => by simpa using all y member)).symm

theorem since_sorted {history : List α} (sorted : Sorted history) (start : α) :
    Sorted (since start history) := sorted.filter _

theorem dropWhile_rtake {history : List α} (sorted : Sorted history) (cap : Nat) (start : α) :
    (history.rtake cap).dropWhile (fun x => x < start) = (since start history).rtake cap := by
  obtain ⟨old,split,early⟩ := sorted_split sorted start
  have fresh : ∀ x ∈ (since start history).rtake cap, start ≤ x := by
    intro x member
    have inside := List.mem_of_mem_drop member
    simpa [since] using (List.mem_filter.mp inside).2
  have kept : (old ++ since start history).rtake cap =
      old.rtake (cap - (since start history).length) ++ (since start history).rtake cap :=
    rtake_append cap old (since start history)
  rw [← split] at kept
  rw [kept,List.dropWhile_append_of_pos]
  · apply List.dropWhile_eq_self_iff.mpr
    intro bound
    simpa using fresh _ (List.getElem_mem bound)
  · intro x member
    simpa using early x (List.mem_of_mem_drop member)

namespace Holds

variable {cap : Nat} {start later x : α} {history list : List α}

theorem length_le (holds : Holds cap start history list) : list.length ≤ cap := by
  rw [holds,length_rtake]
  exact Nat.min_le_left _ _

theorem length_eq (holds : Holds cap start history list) :
    list.length = min cap (history.countP (fun x => start ≤ x)) := by
  rw [holds,length_rtake,since,List.countP_eq_length_filter]

theorem push (holds : Holds cap start history list) (inside : start ≤ x) :
    Holds cap start (history ++ [x]) ((list ++ [x]).rtake cap) := by
  unfold Holds at *
  rw [holds,rtake_concat_rtake,since_append,if_pos inside]

theorem prune (holds : Holds cap start history list) (sorted : Sorted history) (le : start ≤ later) :
    Holds cap later history (list.dropWhile (fun x => x < later)) := by
  unfold Holds at *
  rw [holds,dropWhile_rtake (since_sorted sorted start),since_since le]

end Holds

/-- Each moment comes at least `gap` after the moments before it. -/
def Spaced (gap : Nat) (moments : List Nat) : Prop := moments.Pairwise (fun x later => x + gap ≤ later)

theorem Spaced.span {gap finish : Nat} {moments : List Nat} (spaced : Spaced gap moments)
    (some_moment : moments ≠ []) {start : Nat} (inside : ∀ x ∈ moments, start ≤ x ∧ x ≤ finish) :
    start + gap * moments.length ≤ finish + gap := by
  induction moments generalizing start with
  | nil => exact absurd rfl some_moment
  | cons x rest ih =>
    obtain ⟨later,ordered⟩ := List.pairwise_cons.mp spaced
    obtain ⟨after,before⟩ := inside x List.mem_cons_self
    rw [List.length_cons,Nat.mul_succ]
    rcases eq_or_ne rest [] with rfl | more
    · simp only [List.length_nil,Nat.mul_zero]
      omega
    · have bound := ih ordered more (fun y member =>
        ⟨later y member,(inside y (List.mem_cons_of_mem x member)).2⟩)
      omega

/-- A window holds at most one more moment than gaps fit into it. -/
theorem Spaced.length_le {gap : Nat} {moments : List Nat} (spaced : Spaced gap moments)
    (positive : 0 < gap) (start span : Nat) (inside : ∀ x ∈ moments, start ≤ x ∧ x ≤ start + span) :
    moments.length ≤ span / gap + 1 := by
  rcases eq_or_ne moments [] with rfl | more
  · exact Nat.zero_le _
  · have bound := spaced.span more inside
    have fits : (moments.length - 1) * gap ≤ span := by
      rw [Nat.sub_mul,Nat.mul_comm]
      omega
    have gaps := (Nat.le_div_iff_mul_le positive).mpr fits
    omega

theorem Spaced.countP_le {gap : Nat} {moments : List Nat} (spaced : Spaced gap moments)
    (positive : 0 < gap) (start span : Nat) :
    moments.countP (fun moment => start ≤ moment ∧ moment ≤ start + span) ≤ span / gap + 1 := by
  rw [List.countP_eq_length_filter]
  have kept : Spaced gap (moments.filter (fun moment => start ≤ moment ∧ moment ≤ start + span)) :=
    spaced.filter _
  refine kept.length_le positive start span (fun x member => ?_)
  simpa using (List.mem_filter.mp member).2

end Window
