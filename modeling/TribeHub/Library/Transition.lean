import Mathlib.Data.List.Basic
import Mathlib.Order.Monotone.Basic

/-! Finite runs of an event-driven machine. A run keeps the position of every
event, so that a property can compare two moments of one history: what held
before an update, after a completion, or at any time in between. -/
namespace Transition

/-- `enabled` restricts the environment; `next` is the executable transition. -/
structure Machine (σ ε : Type*) where
  init : σ → Prop
  enabled : σ → ε → Prop
  next : σ → ε → σ

variable {σ ε : Type*} {m : Machine σ ε}

def Legal (m : Machine σ ε) : σ → List ε → Prop
  | _, [] => True
  | s, event :: rest => m.enabled s event ∧ Legal m (m.next s event) rest

def final (m : Machine σ ε) (s : σ) (events : List ε) : σ := events.foldl m.next s

@[simp] theorem final_nil (m : Machine σ ε) (s : σ) : final m s [] = s := rfl

@[simp] theorem final_cons (m : Machine σ ε) (s : σ) (event : ε) (rest : List ε) :
    final m s (event :: rest) = final m (m.next s event) rest := rfl

theorem final_append (m : Machine σ ε) (s : σ) (first second : List ε) :
    final m s (first ++ second) = final m (final m s first) second :=
  List.foldl_append

theorem legal_append (m : Machine σ ε) (s : σ) (first second : List ε) :
    Legal m s (first ++ second) ↔ Legal m s first ∧ Legal m (final m s first) second := by
  induction first generalizing s with
  | nil => simp [Legal]
  | cons event rest ih => simp [Legal,ih,and_assoc]

structure Run (m : Machine σ ε) where
  start : σ
  events : List ε
  starts : m.init start
  legal : Legal m start events

namespace Run

def state (run : Run m) (i : Nat) : σ := final m run.start (run.events.take i)

/-- `event` is the one that leads from position `i` to position `i+1`. -/
def Happens (run : Run m) (i : Nat) (event : ε) : Prop := run.events[i]? = some event

theorem init_state (run : Run m) : m.init (run.state 0) := run.starts

theorem state_succ (run : Run m) {i : Nat} {event : ε} (happens : run.Happens i event) :
    run.state (i+1) = m.next (run.state i) event := by
  obtain ⟨bound,equal⟩ := List.getElem?_eq_some_iff.mp happens
  simp only [state]
  rw [List.take_succ_eq_append_getElem bound,final_append,equal]
  rfl

theorem state_idle (run : Run m) {i : Nat} (idle : run.events[i]? = none) :
    run.state (i+1) = run.state i := by
  have bound := List.getElem?_eq_none_iff.mp idle
  simp only [state]
  rw [List.take_of_length_le bound,List.take_of_length_le (Nat.le_succ_of_le bound)]

theorem enabled (run : Run m) {i : Nat} {event : ε} (happens : run.Happens i event) :
    m.enabled (run.state i) event := by
  obtain ⟨bound,equal⟩ := List.getElem?_eq_some_iff.mp happens
  have split : run.events = run.events.take i ++ event :: run.events.drop (i+1) := by
    rw [← equal,List.getElem_cons_drop,List.take_append_drop]
  have legal := run.legal
  rw [split,legal_append] at legal
  exact legal.2.1

theorem cases_at (run : Run m) (i : Nat) :
    (∃ event, run.Happens i event) ∨ run.events[i]? = none := by
  cases found : run.events[i]? with
  | none => exact Or.inr rfl
  | some event => exact Or.inl ⟨event,found⟩

/-- Induction along a run from position `first`, one case for a position past
the last event and one for a step. The property may mention the whole run. -/
theorem induct_from (run : Run m) (first : Nat) (P : Nat → Prop) (base : P first)
    (idle : ∀ i, first ≤ i → run.events[i]? = none → run.state (i+1) = run.state i →
      P i → P (i+1))
    (step : ∀ i event, first ≤ i → run.Happens i event →
      run.state (i+1) = m.next (run.state i) event → P i → P (i+1)) :
    ∀ i, first ≤ i → P i := by
  intro i bound
  induction i,bound using Nat.le_induction with
  | base => exact base
  | succ i bound ih =>
    rcases run.cases_at i with ⟨event,happens⟩ | none
    · exact step i event bound happens (run.state_succ happens) ih
    · exact idle i bound none (run.state_idle none) ih

theorem invariant_from (run : Run m) (first : Nat) (P : σ → Prop) (base : P (run.state first))
    (step : ∀ i event, first ≤ i → run.Happens i event → P (run.state i) →
      P (m.next (run.state i) event)) :
    ∀ i, first ≤ i → P (run.state i) := by
  apply run.induct_from first (fun i => P (run.state i)) base
  · intro i _ _ same holds
    rw [same]
    exact holds
  · intro i event bound happens same holds
    rw [same]
    exact step i event bound happens holds

theorem invariant (run : Run m) (P : σ → Prop) (init : ∀ s, m.init s → P s)
    (step : ∀ s event, m.enabled s event → P s → P (m.next s event)) (i : Nat) :
    P (run.state i) :=
  run.invariant_from 0 P (init _ run.starts)
    (fun _ event _ happens holds => step _ event (run.enabled happens) holds) i (Nat.zero_le i)

theorem monotone {α : Type*} [Preorder α] (run : Run m) (observe : σ → α)
    (step : ∀ s event, observe s ≤ observe (m.next s event)) :
    Monotone (fun i => observe (run.state i)) := by
  apply monotone_nat_of_le_succ
  intro i
  rcases run.cases_at i with ⟨event,happens⟩ | none
  · rw [run.state_succ happens]
    exact step _ event
  · rw [run.state_idle none]

/-- What is left to observe without the own events of a party: they change nothing that is
observed, and of the other events the observation depends on the observation before. -/
theorem purge {ω : Type*} (run : Run m) (own : ε → Bool) (observe : σ → ω)
    (silent : ∀ i event, run.Happens i event → own event = true →
      observe (run.state (i+1)) = observe (run.state i))
    (separate : ∀ s t event, own event = false → observe s = observe t →
      observe (m.next s event) = observe (m.next t event)) (i : Nat) :
    observe (run.state i) =
      observe (final m run.start ((run.events.take i).filter (fun event => !own event))) := by
  induction i with
  | zero => rfl
  | succ i ih =>
    rcases run.cases_at i with ⟨event,happens⟩ | idle
    · obtain ⟨bound,equal⟩ := List.getElem?_eq_some_iff.mp happens
      rw [List.take_succ_eq_append_getElem bound,equal,List.filter_append,final_append]
      cases owned : own event with
      | true =>
        rw [silent i event happens owned,ih]
        simp [owned]
      | false =>
        rw [run.state_succ happens]
        simpa [owned] using separate _ _ event owned ih
    · have bound := List.getElem?_eq_none_iff.mp idle
      rw [run.state_idle idle,ih,List.take_of_length_le bound,
        List.take_of_length_le (Nat.le_succ_of_le bound)]

def extend (run : Run m) (i : Nat) (more : List ε) (legal : Legal m (run.state i) more) :
    Run m where
  start := run.start
  events := run.events.take i ++ more
  starts := run.starts
  legal := by
    have whole := run.legal
    rw [← List.take_append_drop i run.events,legal_append] at whole
    exact (legal_append m _ _ _).mpr ⟨whole.1,legal⟩

theorem extend_state (run : Run m) {i : Nat} (bound : i ≤ run.events.length) (more : List ε)
    (legal : Legal m (run.state i) more) (j : Nat) :
    (run.extend i more legal).state (i+j) = final m (run.state i) (more.take j) := by
  have size : (run.events.take i).length = i := List.length_take_of_le bound
  have moved : (run.events.take i ++ more).take (i+j) = run.events.take i ++ more.take j := by
    rw [List.take_append,List.take_take,size,Nat.add_sub_cancel_left,
      Nat.min_eq_right (Nat.le_add_right i j)]
  simp only [state,extend]
  rw [moved,final_append]

theorem extend_happens (run : Run m) {i : Nat} (bound : i ≤ run.events.length) (more : List ε)
    (legal : Legal m (run.state i) more) (j : Nat) (event : ε) (found : more[j]? = some event) :
    (run.extend i more legal).Happens (i+j) event := by
  have size : (run.events.take i).length = i := List.length_take_of_le bound
  simp only [Happens,extend]
  rw [List.getElem?_append_right (by omega),size,Nat.add_sub_cancel_left]
  exact found

end Run
end Transition
