import Mathlib.Order.Basic
import Mathlib.Order.Defs.LinearOrder
import Mathlib.Data.List.Sort

/-! The first of finitely many bounds that reaches a target, with the largest bound
standing in when none does. -/
namespace Threshold

variable {α : Type*} [LinearOrder α]

/-- `bound` is the least bound with `reached`, or the largest bound if none has it. -/
structure IsFirst (reached : α → Prop) (bounds : List α) (bound : α) : Prop where
  member : bound ∈ bounds
  least : ∀ other ∈ bounds, other < bound → ¬reached other
  reaches : reached bound ∨ ∀ other ∈ bounds, other ≤ bound

variable {reached other : α → Prop} {bounds : List α} {bound : α}

theorem IsFirst.unique {second : α} (first : IsFirst reached bounds bound)
    (also : IsFirst reached bounds second) : bound = second := by
  have not_before {low high : α} (early : IsFirst reached bounds low)
      (late : IsFirst reached bounds high) : ¬low < high := by
    intro below
    rcases early.reaches with hit | largest
    · exact late.least low early.member below hit
    · exact absurd (largest high late.member) (not_le.mpr below)
  exact le_antisymm (not_lt.mp (not_before also first)) (not_lt.mp (not_before first also))

theorem IsFirst.congr {bounds' : List α} (same : ∀ bound, bound ∈ bounds ↔ bound ∈ bounds')
    (equal : ∀ bound ∈ bounds, reached bound ↔ other bound) (first : IsFirst reached bounds bound) :
    IsFirst other bounds' bound where
  member := (same bound).mp first.member
  least low member before hit := by
    have inside := (same low).mpr member
    exact first.least low inside before ((equal low inside).mpr hit)
  reaches := by
    rcases first.reaches with hit | largest
    · exact Or.inl ((equal bound first.member).mp hit)
    · exact Or.inr (fun high member => largest high ((same high).mpr member))

/-- Two targets that stay reached have one first bound exactly when they are reached by
the same bounds below the largest. -/
theorem IsFirst.agree (upward : ∀ low high, low ≤ high → reached low → reached high)
    (otherUpward : ∀ low high, low ≤ high → other low → other high)
    (first : IsFirst reached bounds bound) :
    IsFirst other bounds bound ↔
      ∀ low ∈ bounds, (∃ high ∈ bounds, low < high) → (reached low ↔ other low) := by
  constructor
  · intro also low member below
    obtain ⟨high,above,order⟩ := below
    have at_bound {goal : α → Prop} (stays : ∀ low high, low ≤ high → goal low → goal high)
        (least : IsFirst goal bounds bound) (later : bound ≤ low) : goal low := by
      rcases least.reaches with hit | largest
      · exact stays bound low later hit
      · exact absurd (largest high above) (not_le.mpr (lt_of_le_of_lt later order))
    rcases lt_or_ge low bound with before | later
    · exact iff_of_false (first.least low member before) (also.least low member before)
    · exact iff_of_true (at_bound upward first later) (at_bound otherUpward also later)
  · intro same
    refine ⟨first.member,fun low member before => ?_,?_⟩
    · have below : ∃ high ∈ bounds, low < high := ⟨bound,first.member,before⟩
      exact fun hit => first.least low member before ((same low member below).mpr hit)
    · rcases first.reaches with hit | largest
      · rcases em (∃ high ∈ bounds, bound < high) with below | top
        · exact Or.inl ((same bound first.member below).mp hit)
        · exact Or.inr (fun high above => not_lt.mp (fun order => top ⟨high,above,order⟩))
      · exact Or.inr largest

/-- What is reached whenever something else is has no later first bound. -/
theorem IsFirst.le_of_imp {second : α} (sooner : ∀ bound, other bound → reached bound)
    (first : IsFirst reached bounds bound) (also : IsFirst other bounds second) : bound ≤ second := by
  refine not_lt.mp fun order => ?_
  rcases also.reaches with hit | largest
  · exact first.least second also.member order (sooner second hit)
  · exact absurd (largest bound first.member) (not_le.mpr order)

/-- The first bound is past a limit exactly when some bound past it has none reached below. -/
theorem IsFirst.exceeds {past : α → Prop} (upward : ∀ low high, low ≤ high → past low → past high)
    (first : IsFirst reached bounds bound) :
    past bound ↔ ∃ late ∈ bounds, past late ∧ ∀ low ∈ bounds, low < late → ¬reached low := by
  constructor
  · exact fun beyond => ⟨bound,first.member,beyond,first.least⟩
  · intro ⟨late,member,beyond,before⟩
    refine upward late bound (not_lt.mp fun order => ?_) beyond
    rcases first.reaches with hit | largest
    · exact before bound first.member order hit
    · exact absurd (largest late member) (not_le.mpr order)

/-- Scanning sorted items for the first that qualifies, with the last as the fallback. -/
theorem isFirst_find {β : Type*} (key : β → α) (qualifies : β → Bool) (items : List β)
    (sorted : items.Pairwise (fun item later => key item ≤ key later)) (last : β)
    (ends : items.getLast? = some last) :
    IsFirst (fun bound => ∃ item ∈ items, key item = bound ∧ qualifies item = true)
      (items.map key) (key ((items.find? qualifies).getD last)) := by
  have present : last ∈ items := List.mem_of_getLast? ends
  cases found : items.find? qualifies with
  | none =>
    have none_qualifies := List.find?_eq_none.mp found
    refine ⟨List.mem_map_of_mem present,fun other _ _ hit => ?_,Or.inr fun other member => ?_⟩
    · obtain ⟨item,inside,_,good⟩ := hit
      exact none_qualifies item inside good
    · obtain ⟨item,inside,rfl⟩ := List.mem_map.mp member
      obtain ⟨front,rfl⟩ := List.getLast?_eq_some_iff.mp ends
      rcases List.mem_append.mp inside with before | same
      · exact (List.pairwise_append.mp sorted).2.2 item before last (List.mem_singleton.mpr rfl)
      · exact le_of_eq (congrArg key (List.mem_singleton.mp same))
  | some item =>
    obtain ⟨good,front,back,rfl,before⟩ := List.find?_eq_some_iff_append.mp found
    have inside : item ∈ front ++ item :: back := by simp
    refine ⟨List.mem_map_of_mem inside,fun other _ order hit => ?_,Or.inl ⟨item,inside,rfl,good⟩⟩
    obtain ⟨hit,member,rfl,qualified⟩ := hit
    rcases List.mem_append.mp member with early | late
    · exact absurd qualified (by simpa using before hit early)
    · rcases List.mem_cons.mp late with rfl | later
      · exact absurd order (lt_irrefl _)
      · have ordered := (List.pairwise_cons.mp (List.pairwise_append.mp sorted).2.1).1 hit later
        exact absurd order (not_lt.mpr ordered)

end Threshold
