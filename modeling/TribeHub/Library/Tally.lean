import Mathlib.Data.List.Basic
import Mathlib.Algebra.BigOperators.Group.List.Basic

/-! Counters keyed by labels. Each key is listed once, and the counts under any selection of
keys add up to the increments that fell under it. -/

structure Tally (κ : Type*) where
  entries : List (κ × Nat)
  nodup : (entries.map Prod.fst).Nodup

namespace Tally

variable {κ : Type*}

def empty : Tally κ := ⟨[],List.nodup_nil⟩

/-- The sum of the counts under the keys that satisfy `selects`. -/
def sumOf (selects : κ → Bool) : List (κ × Nat) → Nat
  | [] => 0
  | (key,count) :: rest => (if selects key then count else 0) + sumOf selects rest

theorem sumOf_perm (selects : κ → Bool) {listed entries : List (κ × Nat)}
    (order : listed.Perm entries) : sumOf selects listed = sumOf selects entries := by
  induction order with
  | nil => rfl
  | cons entry _ ih => simp [sumOf,ih]
  | swap first second _ => simp only [sumOf]; omega
  | trans _ _ one two => exact one.trans two

variable [DecidableEq κ]

def bump (key : κ) : List (κ × Nat) → List (κ × Nat)
  | [] => [(key,1)]
  | (other,count) :: rest =>
    if other = key then (other,count+1) :: rest else (other,count) :: bump key rest

theorem mem_keys_bump {key other : κ} {entries : List (κ × Nat)}
    (present : other ∈ (bump key entries).map Prod.fst) :
    other = key ∨ other ∈ entries.map Prod.fst := by
  induction entries with
  | nil => exact Or.inl (by simpa [bump] using present)
  | cons entry rest ih =>
    obtain ⟨head,count⟩ := entry
    by_cases same : head = key
    · exact Or.inr (by simpa [bump,same] using present)
    · simp only [bump,same,if_false,List.map_cons,List.mem_cons] at present ⊢
      rcases present with rfl | later
      · exact Or.inr (Or.inl rfl)
      · exact (ih later).imp id Or.inr

theorem nodup_bump {key : κ} {entries : List (κ × Nat)} (nodup : (entries.map Prod.fst).Nodup) :
    ((bump key entries).map Prod.fst).Nodup := by
  induction entries with
  | nil => simp [bump]
  | cons entry rest ih =>
    obtain ⟨head,count⟩ := entry
    simp only [List.map_cons,List.nodup_cons] at nodup
    by_cases same : head = key
    · simpa [bump,same] using nodup
    · simp only [bump,same,if_false,List.map_cons,List.nodup_cons]
      refine ⟨fun present => ?_,ih nodup.2⟩
      rcases mem_keys_bump present with equal | listed
      · exact same equal
      · exact nodup.1 listed

def inc (tally : Tally κ) (key : κ) : Tally κ := ⟨bump key tally.entries,nodup_bump tally.nodup⟩

theorem sumOf_bump (selects : κ → Bool) (key : κ) (entries : List (κ × Nat)) :
    sumOf selects (bump key entries) = sumOf selects entries + if selects key then 1 else 0 := by
  induction entries with
  | nil => simp [bump,sumOf]
  | cons entry rest ih =>
    obtain ⟨head,count⟩ := entry
    by_cases same : head = key
    · subst same
      simp only [bump,if_true,sumOf]
      split <;> omega
    · simp only [bump,same,if_false,sumOf,ih]
      omega

theorem sumOf_inc (selects : κ → Bool) (tally : Tally κ) (key : κ) :
    sumOf selects (tally.inc key).entries =
      sumOf selects tally.entries + if selects key then 1 else 0 := sumOf_bump selects key tally.entries

end Tally
