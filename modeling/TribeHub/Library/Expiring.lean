import Mathlib.Logic.Function.Basic

/-! Key-value stores whose entries carry a deadline. An entry is readable up to
and including its deadline; a store may hold entries that are past it. -/
namespace Expiring

structure Entry (V : Type*) where
  value : V
  expiresAt : Nat
  deriving DecidableEq

abbrev Store (K V : Type*) := K → Option (Entry V)

variable {K V : Type*}

def empty : Store K V := fun _ => none

def live (store : Store K V) (now : Nat) (key : K) : Option V :=
  match store key with
  | none => none
  | some entry => if entry.expiresAt < now then none else some entry.value

@[simp] theorem empty_apply (key : K) : (empty : Store K V) key = none := rfl

theorem live_some {store : Store K V} {now : Nat} {key : K} {value : V} :
    live store now key = some value ↔
      ∃ entry, store key = some entry ∧ entry.value = value ∧ now ≤ entry.expiresAt := by
  unfold live
  cases found : store key with
  | none => simp
  | some entry =>
    by_cases expired : entry.expiresAt < now
    · simp [expired]
    · simp [expired]
      omega

theorem live_none {store : Store K V} {now : Nat} {key : K} (absent : store key = none) :
    live store now key = none := by
  simp [live,absent]

theorem live_of_less {store less : Store K V} {now later : Nat} {key : K} {value : V}
    (kept : ∀ entry, less key = some entry → store key = some entry) (elapsed : now ≤ later)
    (read : live less later key = some value) : live store now key = some value := by
  obtain ⟨entry,found,equal,alive⟩ := live_some.mp read
  exact live_some.mpr ⟨entry,kept entry found,equal,Nat.le_trans elapsed alive⟩

variable [DecidableEq K]

def put (store : Store K V) (key : K) (entry : Entry V) : Store K V :=
  Function.update store key (some entry)

def erase (store : Store K V) (key : K) : Store K V := Function.update store key none

def eraseAll (store : Store K V) (keys : List K) : Store K V :=
  fun key => if key ∈ keys then none else store key

@[simp] theorem put_same (store : Store K V) (key : K) (entry : Entry V) :
    put store key entry key = some entry := Function.update_self ..

@[simp] theorem put_other (store : Store K V) {key other : K} (entry : Entry V)
    (distinct : other ≠ key) : put store key entry other = store other :=
  Function.update_of_ne distinct ..

@[simp] theorem erase_same (store : Store K V) (key : K) : erase store key key = none :=
  Function.update_self ..

@[simp] theorem erase_other (store : Store K V) {key other : K} (distinct : other ≠ key) :
    erase store key other = store other := Function.update_of_ne distinct ..

theorem put_cases {store : Store K V} {key other : K} {entry found : Entry V}
    (read : put store key entry other = some found) :
    (other = key ∧ found = entry) ∨ (other ≠ key ∧ store other = some found) := by
  by_cases same : other = key
  · subst other
    exact Or.inl ⟨rfl,by simpa using read.symm⟩
  · exact Or.inr ⟨same,by simpa [same] using read⟩

theorem erase_some {store : Store K V} {key other : K} {found : Entry V}
    (read : erase store key other = some found) : other ≠ key ∧ store other = some found := by
  by_cases same : other = key
  · subst other
    simp at read
  · exact ⟨same,by simpa [same] using read⟩

theorem eraseAll_some {store : Store K V} {keys : List K} {other : K} {found : Entry V}
    (read : eraseAll store keys other = some found) : other ∉ keys ∧ store other = some found := by
  unfold eraseAll at read
  split at read
  · contradiction
  · rename_i absent
    exact ⟨absent,read⟩

end Expiring
