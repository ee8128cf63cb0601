import TribeHub.Library.Transition

/-! One machine followed by another. Under a simulation relation each event is answered by a
block of events, which may be empty, and the positions of a run are carried to the ends of
these blocks. Under a projection every event has exactly one image. -/
namespace Transition

variable {σ τ ε δ : Type*} {m : Machine σ ε} {n : Machine τ δ}

/-- `answer` tells which blocks of `n` follow an event of `m`. -/
structure Follows (m : Machine σ ε) (n : Machine τ δ) (rel : σ → τ → Prop)
    (answer : σ → ε → τ → List δ → Prop) : Prop where
  step : ∀ s t event, rel s t → m.enabled s event → ∃ block, answer s event t block ∧
    Legal n t block ∧ rel (m.next s event) (final n t block)

/-- The position at which the blocks of the first `i` events end. -/
def ends (blocks : List (List δ)) (i : Nat) : Nat := (blocks.take i).flatten.length

theorem ends_succ {blocks : List (List δ)} {i : Nat} {block : List δ}
    (found : blocks[i]? = some block) : ends blocks (i+1) = ends blocks i + block.length := by
  obtain ⟨bound,equal⟩ := List.getElem?_eq_some_iff.mp found
  unfold ends
  rw [List.take_succ_eq_append_getElem bound,equal,List.flatten_append,List.length_append]
  simp

theorem ends_monotone (blocks : List (List δ)) : Monotone (ends blocks) := by
  apply monotone_nat_of_le_succ
  intro i
  cases found : blocks[i]? with
  | some block => exact (ends_succ found).symm ▸ Nat.le_add_right _ _
  | none =>
    have bound := List.getElem?_eq_none_iff.mp found
    unfold ends
    rw [List.take_of_length_le bound,List.take_of_length_le (Nat.le_succ_of_le bound)]

theorem take_ends (blocks : List (List δ)) (i : Nat) :
    blocks.flatten.take (ends blocks i) = (blocks.take i).flatten := by
  have split : blocks.flatten = (blocks.take i).flatten ++ (blocks.drop i).flatten := by
    rw [← List.flatten_append,List.take_append_drop]
  rw [split]
  exact List.take_left

/-- A run of `n` that follows a run of `m` block by block. -/
structure Followed (rel : σ → τ → Prop) (answer : σ → ε → τ → List δ → Prop) (run : Run m)
    (other : Run n) (blocks : List (List δ)) : Prop where
  events : other.events = blocks.flatten
  length : blocks.length = run.events.length
  related : ∀ i, rel (run.state i) (other.state (ends blocks i))
  answers : ∀ i event, run.Happens i event → ∃ block, blocks[i]? = some block ∧
    answer (run.state i) event (other.state (ends blocks i)) block

theorem Followed.state_succ {rel : σ → τ → Prop} {answer : σ → ε → τ → List δ → Prop} {run : Run m}
    {other : Run n} {blocks : List (List δ)} (followed : Followed rel answer run other blocks)
    {i : Nat} {block : List δ} (found : blocks[i]? = some block) :
    other.state (ends blocks (i+1)) = final n (other.state (ends blocks i)) block := by
  obtain ⟨bound,equal⟩ := List.getElem?_eq_some_iff.mp found
  simp only [Run.state]
  rw [followed.events,take_ends,take_ends,List.take_succ_eq_append_getElem bound,equal,
    List.flatten_append,final_append]
  simp

theorem Follows.blocks {rel : σ → τ → Prop} {answer : σ → ε → τ → List δ → Prop}
    (follows : Follows m n rel answer) (events : List ε) (s : σ) (t : τ) (related : rel s t)
    (legal : Legal m s events) : ∃ blocks : List (List δ), blocks.length = events.length ∧
      Legal n t blocks.flatten ∧
        (∀ i, rel (final m s (events.take i)) (final n t (blocks.take i).flatten)) ∧
          ∀ (i : Nat) event, events[i]? = some event → ∃ block, blocks[i]? = some block ∧
            answer (final m s (events.take i)) event (final n t (blocks.take i).flatten) block := by
  induction events generalizing s t with
  | nil =>
    refine ⟨[],rfl,trivial,fun i => ?_,fun i event found => by simp at found⟩
    simpa using related
  | cons event rest ih =>
    obtain ⟨block,answers,legalBlock,later⟩ := follows.step s t event related legal.1
    obtain ⟨blocks,length,legalRest,relatedRest,answersRest⟩ := ih _ _ later legal.2
    refine ⟨block :: blocks,by simp [length],?_,fun i => ?_,fun i other found => ?_⟩
    · rw [List.flatten_cons,legal_append]
      exact ⟨legalBlock,legalRest⟩
    · cases i with
      | zero => simpa using related
      | succ i =>
        rw [List.take_succ_cons,List.take_succ_cons,List.flatten_cons,final_append,final_cons]
        exact relatedRest i
    · cases i with
      | zero =>
        obtain rfl : event = other := by simpa using found
        exact ⟨block,rfl,answers⟩
      | succ i =>
        rw [List.take_succ_cons,List.take_succ_cons,List.flatten_cons,final_append,final_cons]
        exact answersRest i other (by simpa using found)

theorem Follows.run {rel : σ → τ → Prop} {answer : σ → ε → τ → List δ → Prop}
    (follows : Follows m n rel answer) (run : Run m) {t : τ} (starts : n.init t)
    (related : rel run.start t) :
    ∃ (other : Run n) (blocks : List (List δ)), other.start = t ∧
      Followed rel answer run other blocks := by
  obtain ⟨blocks,length,legal,relatedAll,answers⟩ := follows.blocks run.events run.start t related run.legal
  have state (i : Nat) : final n t (blocks.flatten.take (ends blocks i)) =
      final n t (blocks.take i).flatten := congrArg (final n t) (take_ends blocks i)
  refine ⟨⟨t,blocks.flatten,starts,legal⟩,blocks,rfl,rfl,length,fun i => ?_,fun i event happens => ?_⟩
  · have here := relatedAll i
    rw [← state i] at here
    exact here
  · have here := answers i event happens
    rw [← state i] at here
    exact here

theorem Followed.sublist {m' : Machine τ ε} {rel : σ → τ → Prop} {answer : σ → ε → τ → List ε → Prop}
    {run : Run m} {other : Run m'} {blocks : List (List ε)}
    (followed : Followed rel answer run other blocks)
    (kept : ∀ s event t block, answer s event t block → block.Sublist [event]) :
    other.events.Sublist run.events := by
  have pieces : ∀ (i : Nat) block, blocks[i]? = some block → ∃ event, run.events[i]? = some event ∧
      block.Sublist [event] := by
    intro i block found
    have bound : i < run.events.length := followed.length ▸ (List.getElem?_eq_some_iff.mp found).1
    obtain ⟨same,there,answered⟩ := followed.answers i _ (List.getElem?_eq_getElem bound)
    obtain rfl := Option.some.inj (found.symm.trans there)
    exact ⟨_,List.getElem?_eq_getElem bound,kept _ _ _ _ answered⟩
  rw [followed.events]
  have length := followed.length
  generalize run.events = events at pieces length
  clear followed
  induction blocks generalizing events with
  | nil => exact List.nil_sublist events
  | cons block rest ih =>
    cases events with
    | nil => simp at length
    | cons event events =>
      obtain ⟨first,found,part⟩ := pieces 0 block rfl
      obtain rfl : event = first := by simpa using found
      refine List.Sublist.append part (ih events ?_ (by simpa using length))
      intro i later there
      exact pieces (i+1) later there

/-- The machine whose events also meet a condition on the state before them. -/
def Machine.restrict (m : Machine σ ε) (condition : σ → ε → Prop) : Machine σ ε where
  init := m.init
  enabled s event := m.enabled s event ∧ condition s event
  next := m.next

theorem legal_restrict {condition : σ → ε → Prop} (s : σ) (events : List ε) :
    Legal (m.restrict condition) s events → Legal m s events := by
  induction events generalizing s with
  | nil => exact id
  | cons event rest ih => exact fun legal => ⟨legal.1.1,ih _ legal.2⟩

def Run.relax {condition : σ → ε → Prop} (run : Run (m.restrict condition)) : Run m where
  start := run.start
  events := run.events
  starts := run.starts
  legal := legal_restrict run.start run.events run.legal

theorem Run.relax_condition {condition : σ → ε → Prop} (run : Run (m.restrict condition)) {i : Nat}
    {event : ε} (happens : run.relax.Happens i event) : condition (run.relax.state i) event :=
  (run.enabled happens).2

/-- Each event of `m` seen as exactly one event of `n`. -/
structure Projection (m : Machine σ ε) (n : Machine τ δ) where
  state : σ → τ
  event : σ → ε → δ
  init : ∀ s, m.init s → n.init (state s)
  enabled : ∀ s e, m.enabled s e → n.enabled (state s) (event s e)
  next : ∀ s e, m.enabled s e → state (m.next s e) = n.next (state s) (event s e)

namespace Projection

variable (projection : Projection m n)

def events : σ → List ε → List δ
  | _, [] => []
  | s, e :: rest => projection.event s e :: events (m.next s e) rest

theorem events_legal (s : σ) (events : List ε) (legal : Legal m s events) :
    Legal n (projection.state s) (projection.events s events) ∧
      ∀ i, final n (projection.state s) ((projection.events s events).take i) =
        projection.state (final m s (events.take i)) := by
  induction events generalizing s with
  | nil => exact ⟨trivial,fun i => by simp [Projection.events]⟩
  | cons e rest ih =>
    obtain ⟨enabled,later⟩ := legal
    obtain ⟨legalRest,states⟩ := ih _ later
    rw [projection.next s e enabled] at legalRest states
    refine ⟨⟨projection.enabled s e enabled,legalRest⟩,fun i => ?_⟩
    cases i with
    | zero => rfl
    | succ i =>
      simp only [Projection.events,List.take_succ_cons,final_cons]
      exact states i

def run (run : Run m) : Run n where
  start := projection.state run.start
  events := projection.events run.start run.events
  starts := projection.init _ run.starts
  legal := (projection.events_legal run.start run.events run.legal).1

theorem run_state (run : Run m) (i : Nat) :
    (projection.run run).state i = projection.state (run.state i) :=
  (projection.events_legal run.start run.events run.legal).2 i

theorem events_getElem (s : σ) (events : List ε) (i : Nat) :
    (projection.events s events)[i]? =
      (events[i]?).map (projection.event (final m s (events.take i))) := by
  induction events generalizing s i with
  | nil => simp [Projection.events]
  | cons e rest ih =>
    cases i with
    | zero => rfl
    | succ i =>
      simp only [Projection.events,List.getElem?_cons_succ,List.take_succ_cons,final_cons]
      exact ih _ i

theorem run_happens (run : Run m) {i : Nat} {event : δ} :
    (projection.run run).Happens i event ↔
      ∃ e, run.Happens i e ∧ projection.event (run.state i) e = event := by
  unfold Run.Happens
  have found := projection.events_getElem run.start run.events i
  simp only [Projection.run,found,Option.map_eq_some_iff]
  rfl

end Projection
end Transition
