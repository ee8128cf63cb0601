import TribeHub.Library.Glob
import TribeHub.SystemConfig.WholeOperations

/-! `clearRedisNamespace` against a Redis that other clients use. The loop deletes the keys
it iterates over; what a full SCAN iteration may leave out is only what was absent meanwhile,
so what is left of the namespace was written again. -/
namespace TribeHub.SystemConfig
open Expiring Transition

/-- The contents of a Redis by key, each with its time to live if it has one. -/
abbrev Keyspace (D : Type) := String → Option D

variable {D : Type}

def outside (redis : Keyspace D) : {key : String // ¬InNamespace key} → Option D :=
  fun key => redis key

/-- A command of another client, an expiry or an eviction. What it makes of the keys outside
the namespace does not depend on the keys in it. -/
structure Command (D : Type) where
  effect : Keyspace D → Keyspace D
  apart : ∀ first second, outside first = outside second →
    outside (effect first) = outside (effect second)

def Command.update (key : String) (change : Option D → Option D) : Command D where
  effect redis := Function.update redis key (change (redis key))
  apart first second same := by
    funext other
    by_cases equal : other.val = key
    · subst equal
      simpa [outside] using congrArg change (congrFun same other)
    · simpa [outside,equal] using congrFun same other

def del (redis : Keyspace D) (keys : List String) : Keyspace D :=
  fun key => if key ∈ keys then none else redis key

/-- Where the call is suspended, or how it ended: at a SCAN, at the DEL of a page, behind the
loop, in the `catch`, or at once for want of a client. -/
inductive ClearPc where
  | scan (cursor : String)
  | del (keys : List String) (cursor : String)
  | ended
  | caught
  | noClient

def beginClear (redisClient : Bool) : ClearPc := if redisClient then .scan "0" else .noClient

def scanPattern : String := redisKeyPrefix ++ "*"

def ClearPc.afterPage (cursor : String) : ClearPc := if cursor = "0" then .ended else .scan cursor

structure ClearState (D : Type) where
  redis : Keyspace D
  pc : ClearPc

/-- The execution of the command that the call waits for, with its reply, or a command of
another client. A rejected DEL may have been executed. -/
inductive ClearEvent (D : Type) where
  | other (command : Command D)
  | scan (nextCursor : String) (keys : List String)
  | del
  | reject (executed : Bool)

def clearNext (s : ClearState D) : ClearEvent D → ClearState D
  | .other command => {s with redis := command.effect s.redis}
  | .scan nextCursor keys =>
    match s.pc with
    | .scan _ => {s with pc := if keys.length > 0 then .del keys nextCursor else .afterPage nextCursor}
    | _ => s
  | .del =>
    match s.pc with
    | .del keys cursor => ⟨del s.redis keys,.afterPage cursor⟩
    | _ => s
  | .reject executed =>
    match s.pc with
    | .scan _ => {s with pc := .caught}
    | .del keys _ => ⟨if executed then del s.redis keys else s.redis,.caught⟩
    | _ => s

/-- SCAN returns only keys that match the pattern. -/
def ClearEnabled (s : ClearState D) : ClearEvent D → Prop
  | .other _ => True
  | .scan _ keys => (∃ cursor, s.pc = .scan cursor) ∧ ∀ key ∈ keys, Glob.selects scanPattern key = true
  | .del => ∃ keys cursor, s.pc = .del keys cursor
  | .reject _ => (∃ cursor, s.pc = .scan cursor) ∨ ∃ keys cursor, s.pc = .del keys cursor

def clearMachine (D : Type) : Machine (ClearState D) (ClearEvent D) where
  init s := ∃ redisClient, s.pc = beginClear redisClient
  enabled := ClearEnabled
  next := clearNext

theorem inNamespace_iff (key : String) : InNamespace key ↔ redisKeyPrefix.toList <+: key.toList := by
  constructor
  · intro named
    obtain ⟨configKey,rfl⟩ := named
    exact ⟨configKey.toList,by rw [redisKey,String.toList_append]⟩
  · intro before
    obtain ⟨rest,split⟩ := before
    refine ⟨.ofList rest,?_⟩
    rw [redisKey,← String.toList_inj,String.toList_append,String.toList_ofList,split]

theorem scanPattern_selects (key : String) :
    Glob.selects scanPattern key = true ↔ InNamespace key := by
  rw [scanPattern,Glob.selects_stem (List.all_eq_true.mp (by decide)),inNamespace_iff]

theorem del_listed {redis : Keyspace D} {keys : List String} {key : String} (listed : key ∈ keys) :
    del redis keys key = none := by
  simp [del,listed]

theorem del_unlisted {redis : Keyspace D} {keys : List String} {key : String} (unlisted : key ∉ keys) :
    del redis keys key = redis key := by
  simp [del,unlisted]

theorem del_absent {redis : Keyspace D} {key : String} (absent : redis key = none) (keys : List String) :
    del redis keys key = none := by
  simp [del,absent]

theorem del_nil (redis : Keyspace D) : del redis [] = redis := by
  funext key
  exact del_unlisted List.not_mem_nil

theorem del_outside {redis : Keyspace D} {keys : List String} (listed : ∀ key ∈ keys, InNamespace key) :
    outside (del redis keys) = outside redis := by
  funext key
  exact del_unlisted (fun present => key.property (listed key present))

inductive ClearMove (s : ClearState D) : ClearEvent D → ClearState D → Prop
  | other (command) : ClearMove s (.other command) {s with redis := command.effect s.redis}
  | emptyPage (cursor nextCursor) (waiting : s.pc = .scan cursor) :
      ClearMove s (.scan nextCursor []) {s with pc := .afterPage nextCursor}
  | page (cursor nextCursor keys) (waiting : s.pc = .scan cursor)
      (listed : ∀ key ∈ keys, InNamespace key) :
      ClearMove s (.scan nextCursor keys) {s with pc := .del keys nextCursor}
  | deleted (keys cursor) (waiting : s.pc = .del keys cursor) :
      ClearMove s .del ⟨del s.redis keys,.afterPage cursor⟩
  | scanRejected (executed cursor) (waiting : s.pc = .scan cursor) :
      ClearMove s (.reject executed) {s with pc := .caught}
  | delRejected (executed keys cursor) (waiting : s.pc = .del keys cursor) :
      ClearMove s (.reject executed) ⟨if executed then del s.redis keys else s.redis,.caught⟩

theorem clearNext_move {s : ClearState D} {event : ClearEvent D} (enabled : ClearEnabled s event) :
    ClearMove s event (clearNext s event) := by
  cases event with
  | other command => exact .other command
  | scan nextCursor keys =>
    obtain ⟨⟨cursor,waiting⟩,matching⟩ := enabled
    simp only [clearNext,waiting]
    cases keys with
    | nil => exact .emptyPage cursor nextCursor waiting
    | cons key rest =>
      exact .page cursor nextCursor (key :: rest) waiting
        (fun other present => (scanPattern_selects other).mp (matching other present))
  | del =>
    obtain ⟨keys,cursor,waiting⟩ := enabled
    simp only [clearNext,waiting]
    exact .deleted keys cursor waiting
  | reject executed =>
    rcases enabled with ⟨cursor,waiting⟩ | ⟨keys,cursor,waiting⟩
    · simp only [clearNext,waiting]
      exact .scanRejected executed cursor waiting
    · simp only [clearNext,waiting]
      exact .delRejected executed keys cursor waiting

section Runs

variable (run : Run (clearMachine D))

/-- The SCAN of position `i`, with the cursor it was sent with and its reply. -/
def Scans (i : Nat) (cursor nextCursor : String) (keys : List String) : Prop :=
  (run.state i).pc = .scan cursor ∧ run.Happens i (.scan nextCursor keys)

def Returned (i : Nat) (key : String) : Prop :=
  ∃ cursor nextCursor keys, Scans run i cursor nextCursor keys ∧ key ∈ keys

/-- SCANs from position `first` to position `last`, the first with cursor 0 and each with the
cursor that the one before it returned, the last of which returned this cursor. -/
inductive Iteration (first : Nat) : Nat → String → Prop
  | first (nextCursor keys) (scan : Scans run first "0" nextCursor keys) :
      Iteration first first nextCursor
  | later (last i cursor nextCursor keys) (before : Iteration first last cursor)
      (unfinished : cursor ≠ "0") (order : last < i) (scan : Scans run i cursor nextCursor keys) :
      Iteration first i nextCursor

theorem Iteration.last_scan {run : Run (clearMachine D)} {first last : Nat} {nextCursor : String}
    (iteration : Iteration run first last nextCursor) :
    first ≤ last ∧ ∃ cursor keys, Scans run last cursor nextCursor keys := by
  induction iteration with
  | first nextCursor keys scan => exact ⟨Nat.le_refl _,"0",keys,scan⟩
  | later last i cursor nextCursor keys _ _ order scan ih =>
    exact ⟨Nat.le_trans ih.1 (Nat.le_of_lt order),cursor,keys,scan⟩

/-- The guarantee of SCAN: an iteration from cursor 0 to cursor 0 returns every matching key
that is present from its start to its end. -/
def FullIterations : Prop :=
  ∀ first last, Iteration run first last "0" → ∀ key, Glob.selects scanPattern key = true →
    (∀ i, first ≤ i → i ≤ last → (run.state i).redis key ≠ none) →
      ∃ i, first ≤ i ∧ i ≤ last ∧ Returned run i key

/-- Before position `i` the key came back after it had been absent. -/
def WrittenAgain (i : Nat) (key : String) : Prop :=
  ∃ k, k < i ∧ (run.state k).redis key = none ∧ (run.state (k+1)).redis key ≠ none

def ClearEvent.own : ClearEvent D → Bool
  | .other _ => false
  | _ => true

/-- The contents at position `i` of the same Redis under the other clients' commands alone. -/
def withoutCall (i : Nat) : Keyspace D :=
  (final (clearMachine D) run.start ((run.events.take i).filter (fun event => !event.own))).redis

structure NamespaceCleared (i : Nat) : Prop where
  removed : ∀ key, InNamespace key → run.start.redis key ≠ none → ¬WrittenAgain run i key →
    (run.state i).redis key = none
  others : ∀ key, ¬InNamespace key → (run.state i).redis key = withoutCall run i key

variable {run}

theorem run_clearMove {i : Nat} {event : ClearEvent D} (happens : run.Happens i event) :
    ClearMove (run.state i) event (run.state (i+1)) := by
  rw [run.state_succ happens]
  exact clearNext_move (run.enabled happens)

inductive ClearProgress (run : Run (clearMachine D)) (i : Nat) : ClearPc → Prop
  | noClient : ClearProgress run i .noClient
  | begins : ClearProgress run i (.scan "0")
  | scans (first last cursor) (past : last < i) (iteration : Iteration run first last cursor)
      (unfinished : cursor ≠ "0") : ClearProgress run i (.scan cursor)
  | deletes (first last keys cursor) (past : last < i) (iteration : Iteration run first last cursor)
      (listed : ∀ key ∈ keys, InNamespace key) : ClearProgress run i (.del keys cursor)
  | ended (first last) (past : last < i) (iteration : Iteration run first last "0") :
      ClearProgress run i .ended
  | caught : ClearProgress run i .caught

theorem ClearProgress.later {i j : Nat} {pc : ClearPc} (progress : ClearProgress run i pc)
    (order : i ≤ j) : ClearProgress run j pc := by
  cases progress with
  | noClient => exact .noClient
  | begins => exact .begins
  | scans first last cursor past iteration unfinished =>
    exact .scans first last cursor (Nat.lt_of_lt_of_le past order) iteration unfinished
  | deletes first last keys cursor past iteration listed =>
    exact .deletes first last keys cursor (Nat.lt_of_lt_of_le past order) iteration listed
  | ended first last past iteration =>
    exact .ended first last (Nat.lt_of_lt_of_le past order) iteration
  | caught => exact .caught

theorem ClearProgress.afterPage {i first last : Nat} {cursor : String} (past : last < i)
    (iteration : Iteration run first last cursor) : ClearProgress run i (.afterPage cursor) := by
  unfold ClearPc.afterPage
  split
  · rename_i finished
    subst finished
    exact .ended first last past iteration
  · rename_i unfinished
    exact .scans first last cursor past iteration unfinished

/-- A SCAN that the loop sends begins its iteration or continues it. -/
theorem ClearProgress.scanned {i : Nat} {cursor nextCursor : String} {keys : List String}
    (progress : ClearProgress run i (.scan cursor)) (scan : Scans run i cursor nextCursor keys) :
    ∃ first, Iteration run first i nextCursor := by
  cases progress with
  | begins => exact ⟨i,.first nextCursor keys scan⟩
  | scans first last _ past iteration unfinished =>
    exact ⟨first,.later last i cursor nextCursor keys iteration unfinished past scan⟩

theorem clear_progress (run : Run (clearMachine D)) (i : Nat) :
    ClearProgress run i (run.state i).pc := by
  induction i with
  | zero =>
    obtain ⟨redisClient,started⟩ := run.init_state
    rw [started]
    cases redisClient with
    | false => exact .noClient
    | true => exact .begins
  | succ i ih =>
    rcases run.cases_at i with ⟨event,happens⟩ | idle
    · have move := run_clearMove happens
      generalize after : run.state (i+1) = t at move ⊢
      cases move with
      | other command => exact ih.later (Nat.le_succ i)
      | emptyPage cursor nextCursor waiting =>
        rw [waiting] at ih
        obtain ⟨first,iteration⟩ := ih.scanned ⟨waiting,happens⟩
        exact ClearProgress.afterPage (Nat.lt_succ_self i) iteration
      | page cursor nextCursor keys waiting listed =>
        rw [waiting] at ih
        obtain ⟨first,iteration⟩ := ih.scanned ⟨waiting,happens⟩
        exact .deletes first i keys nextCursor (Nat.lt_succ_self i) iteration listed
      | deleted keys cursor waiting =>
        rw [waiting] at ih
        cases ih with
        | deletes first last _ _ past iteration listed =>
          exact ClearProgress.afterPage (Nat.lt_succ_of_lt past) iteration
      | scanRejected executed cursor waiting => exact .caught
      | delRejected executed keys cursor waiting => exact .caught
    · rw [run.state_idle idle]
      exact ih.later (Nat.le_succ i)

/-- A key that a SCAN returned is deleted, waits on the page that is being deleted, or is left
to a rejected command. -/
theorem returned_deleted {k : Nat} {key : String} (returned : Returned run k key) : ∀ i, k + 1 ≤ i →
    (∃ j, j ≤ i ∧ (run.state j).redis key = none) ∨
      (∃ keys cursor, (run.state i).pc = .del keys cursor ∧ key ∈ keys) ∨
        (run.state i).pc = .caught := by
  apply run.induct_from (k+1)
  · obtain ⟨cursor,nextCursor,keys,⟨_,happens⟩,listed⟩ := returned
    have move := run_clearMove happens
    generalize after : run.state (k+1) = t at move ⊢
    cases move with
    | emptyPage => simp at listed
    | page => exact Or.inr (Or.inl ⟨keys,nextCursor,rfl,listed⟩)
  · intro i _ _ same before
    rw [same]
    rcases before with ⟨j,order,absent⟩ | waiting
    · exact Or.inl ⟨j,Nat.le_succ_of_le order,absent⟩
    · exact Or.inr waiting
  · intro i event _ happens _ before
    rcases before with ⟨j,order,absent⟩ | ⟨page,next,pending,listed⟩ | rejected
    · exact Or.inl ⟨j,Nat.le_succ_of_le order,absent⟩
    · have move := run_clearMove happens
      generalize after : run.state (i+1) = t at move ⊢
      cases move with
      | other command => exact Or.inr (Or.inl ⟨page,next,pending,listed⟩)
      | deleted keys cursor waiting =>
        rw [pending] at waiting
        cases waiting
        refine Or.inl ⟨i+1,Nat.le_refl _,?_⟩
        rw [after]
        exact del_listed listed
      | delRejected => exact Or.inr (Or.inr rfl)
      | emptyPage cursor nextCursor waiting | page cursor nextCursor keys waiting
      | scanRejected executed cursor waiting =>
        rw [pending] at waiting
        contradiction
    · have move := run_clearMove happens
      generalize after : run.state (i+1) = t at move ⊢
      cases move with
      | other command => exact Or.inr (Or.inr rejected)
      | emptyPage cursor nextCursor waiting | page cursor nextCursor keys waiting
      | deleted keys cursor waiting | scanRejected executed cursor waiting
      | delRejected executed keys cursor waiting =>
        rw [rejected] at waiting
        contradiction

theorem absent_stays {i j : Nat} {key : String} (unwritten : ¬WrittenAgain run i key) (order : j ≤ i)
    (absent : (run.state j).redis key = none) : (run.state i).redis key = none := by
  induction i,order using Nat.le_induction with
  | base => exact absent
  | succ i order ih =>
    have before : (run.state i).redis key = none :=
      ih (fun written => by
        obtain ⟨k,earlier,gone,back⟩ := written
        exact unwritten ⟨k,Nat.lt_succ_of_lt earlier,gone,back⟩)
    by_contra back
    exact unwritten ⟨i,Nat.lt_succ_self i,before,back⟩

/-- A key that is left and was not written again was there all along, so a SCAN returned it. -/
theorem removed_of_ended (guarantee : FullIterations run) {i : Nat}
    (ended : (run.state i).pc = .ended) {key : String} (named : InNamespace key)
    (unwritten : ¬WrittenAgain run i key) : (run.state i).redis key = none := by
  have progress := clear_progress run i
  rw [ended] at progress
  cases progress with
  | ended first last past iteration =>
    by_contra left
    have present : ∀ j, j ≤ i → (run.state j).redis key ≠ none :=
      fun j order absent => left (absent_stays unwritten order absent)
    obtain ⟨k,_,within,returned⟩ := guarantee first last iteration key
      ((scanPattern_selects key).mpr named)
      (fun j _ within => present j (Nat.le_of_lt (Nat.lt_of_le_of_lt within past)))
    rcases returned_deleted returned i (Nat.lt_of_le_of_lt within past) with
      ⟨j,order,absent⟩ | ⟨keys,cursor,waiting,_⟩ | rejected
    · exact present j order absent
    · rw [ended] at waiting
      contradiction
    · rw [ended] at rejected
      contradiction

theorem pending_listed {i : Nat} {keys : List String} {cursor : String}
    (waiting : (run.state i).pc = .del keys cursor) : ∀ key ∈ keys, InNamespace key := by
  have progress := clear_progress run i
  rw [waiting] at progress
  cases progress with
  | deletes _ _ _ _ _ _ listed => exact listed

/-- All that the call does to Redis is to delete keys of the namespace. -/
theorem own_deletes {i : Nat} {event : ClearEvent D} (happens : run.Happens i event)
    (own : event.own = true) : ∃ keys, (∀ key ∈ keys, InNamespace key) ∧
      (run.state (i+1)).redis = del (run.state i).redis keys := by
  have move := run_clearMove happens
  generalize run.state (i+1) = t at move ⊢
  cases move with
  | other command => contradiction
  | emptyPage | page | scanRejected => exact ⟨[],by simp,(del_nil _).symm⟩
  | deleted keys cursor waiting => exact ⟨keys,pending_listed waiting,rfl⟩
  | delRejected executed keys cursor waiting =>
    cases executed with
    | false => exact ⟨[],by simp,(del_nil _).symm⟩
    | true => exact ⟨keys,pending_listed waiting,rfl⟩

theorem own_outside {i : Nat} {event : ClearEvent D} (happens : run.Happens i event)
    (own : event.own = true) : outside (run.state (i+1)).redis = outside (run.state i).redis := by
  obtain ⟨keys,listed,after⟩ := own_deletes happens own
  rw [after]
  exact del_outside listed

theorem outside_withoutCall (run : Run (clearMachine D)) (i : Nat) :
    outside (run.state i).redis = outside (withoutCall run i) := by
  apply run.purge ClearEvent.own (fun s => outside s.redis) (fun i event => own_outside)
  intro s t event foreign same
  cases event with
  | other command => exact command.apart s.redis t.redis same
  | _ => contradiction

/-- Whatever other clients do and however Redis pages its replies, once the loop has ended
nothing is left of the namespace but what was written again, and the other keys are as if
the call had not been made. -/
theorem namespace_cleared (guarantee : FullIterations run) {i : Nat}
    (ended : (run.state i).pc = .ended) : NamespaceCleared run i where
  removed _ named _ unwritten := removed_of_ended guarantee ended named unwritten
  others key foreign := congrFun (outside_withoutCall run i) ⟨key,foreign⟩

theorem unwritten_alone (alone : ∀ i event, run.Happens i event → event.own = true) (i : Nat)
    (key : String) : ¬WrittenAgain run i key := by
  intro written
  obtain ⟨k,_,gone,back⟩ := written
  rcases run.cases_at k with ⟨event,happens⟩ | idle
  · obtain ⟨keys,_,after⟩ := own_deletes happens (alone k event happens)
    rw [after] at back
    exact back (del_absent gone keys)
  · rw [run.state_idle idle] at back
    exact back gone

theorem outside_alone (alone : ∀ i event, run.Happens i event → event.own = true) (i : Nat) :
    outside (run.state i).redis = outside run.start.redis := by
  induction i with
  | zero => rfl
  | succ i ih =>
    rcases run.cases_at i with ⟨event,happens⟩ | idle
    · exact (own_outside happens (alone i event happens)).trans ih
    · rw [run.state_idle idle]
      exact ih

end Runs

/-- A queue that works on its jobs during an iteration of an empty and a repetitive page. -/
def busyQueue : Run (clearMachine Nat) where
  start := ⟨fun key => if key = "system_config:a" then some 1 else if key = "bull:jobs" then some 2
    else none,.scan "0"⟩
  events := [.scan "5" [],.other (.update "bull:jobs" (fun jobs => jobs.map (· + 1))),
    .scan "0" ["system_config:a","system_config:a"],.del]
  starts := ⟨true,rfl⟩
  legal := by
    have page : ∀ key ∈ ["system_config:a","system_config:a"], Glob.selects scanPattern key = true := by
      intro key listed
      have same : key = "system_config:a" := by simpa using listed
      exact (scanPattern_selects key).mpr ⟨"a",same⟩
    exact ⟨⟨⟨"0",rfl⟩,by simp⟩,trivial,⟨⟨"5",rfl⟩,page⟩,⟨_,_,rfl⟩,trivial⟩

theorem busyQueue_iterations : FullIterations busyQueue := by
  intro first last iteration key selected present
  obtain ⟨order,cursor,keys,scan⟩ := iteration.last_scan
  have final : last = 2 := by
    have happens := scan.2
    match last with
    | 0 => simp [Run.Happens,busyQueue] at happens
    | 1 => cases happens
    | 2 => rfl
    | 3 => cases happens
    | last+4 => cases happens
  subst final
  refine ⟨2,order,Nat.le_refl 2,"5","0",_,⟨rfl,rfl⟩,?_⟩
  have apart : key ≠ "bull:jobs" := by
    intro same
    subst same
    exact absurd ((inNamespace_iff _).mp ((scanPattern_selects _).mp selected)) (by decide)
  have found : (busyQueue.state 2).redis key ≠ none := present 2 order (Nat.le_refl 2)
  have before : (busyQueue.state 2).redis key = busyQueue.start.redis key := Function.update_of_ne apart ..
  rw [before] at found
  by_contra absent
  have other : key ≠ "system_config:a" := by simpa using absent
  exact found (by simp [busyQueue,other,apart])

theorem busyQueue_cleared : FullIterations busyQueue ∧ NamespaceCleared busyQueue 4 :=
  ⟨busyQueue_iterations,namespace_cleared busyQueue_iterations rfl⟩

/-- With no other client's command between its awaits the loop is the whole operation. -/
theorem uninterrupted_clear {run : Run (clearMachine (Entry String))}
    (alone : ∀ i event, run.Happens i event → event.own = true) (guarantee : FullIterations run) {i : Nat}
    (ended : (run.state i).pc = .ended) : (run.state i).redis = clearRedisNamespace run.start.redis := by
  funext key
  by_cases named : InNamespace key
  · rw [removed_of_ended guarantee ended named (unwritten_alone alone i key)]
    simp [clearRedisNamespace,(inNamespace_iff key).mp named]
  · have kept : (run.state i).redis key = run.start.redis key :=
      congrFun (outside_alone alone i) ⟨key,named⟩
    rw [kept]
    simp [clearRedisNamespace,mt (inNamespace_iff key).mpr named]

section Interleaved

variable {I V : Type} [DecidableEq I]

/-- The suspended `invalidate` of the interleaved service stands where this loop stands. -/
inductive Clears : InvalidatePc → ClearPc → Prop
  | scan (cursor owed) : Clears (.scan cursor owed) (.scan cursor)
  | del (keys cursor owed) : Clears (.del keys cursor owed) (.del keys cursor)
  | ended : Clears .resolved .ended
  | caught : Clears .resolved .caught

inductive Answers (call : Nat) : ClearPc → Event I V → ClearEvent (Entry String) → Prop
  | scan (cursor nextCursor keys) :
      Answers call (.scan cursor) (.scan call true nextCursor keys) (.scan nextCursor keys)
  | scanRejected (cursor nextCursor keys) :
      Answers call (.scan cursor) (.scan call false nextCursor keys) (.reject false)
  | del (keys cursor) : Answers call (.del keys cursor) (.redisDel call true) .del
  | delRejected (keys cursor) :
      Answers call (.del keys cursor) (.redisDel call false) (.reject false)

theorem Clears.afterPage (cursor : String) (owed : String → Prop) :
    Clears (SystemConfig.afterPage cursor owed) (.afterPage cursor) := by
  unfold SystemConfig.afterPage ClearPc.afterPage
  split
  · exact .ended
  · exact .scan cursor owed

theorem invalidate_clears (json : JsonCodec V) (ttlMs : Nat) {s : State I V} {call : Nat} (service : I)
    {argument : Option String} (unused : s.invalidations call = none)
    (everything : singleKey argument = none) : ∃ pc,
    (next json ttlMs s (.invalidate call service argument)).invalidations call = some pc ∧
      Clears pc (beginClear true) := by
  refine ⟨.scan "0" InNamespace,?_,.scan "0" InNamespace⟩
  simp [next,unused,everything,State.setInvalidation]

/-- Each reply moves the interleaved `invalidate` as it moves this loop, and does the same
to Redis. -/
theorem invalidate_simulates (json : JsonCodec V) (ttlMs : Nat) {s : State I V}
    {c : ClearState (Entry String)} {call : Nat} {pc : InvalidatePc} {event : Event I V}
    {reply : ClearEvent (Entry String)} (waiting : s.invalidations call = some pc)
    (clears : Clears pc c.pc) (same : s.redis = c.redis) (answers : Answers call c.pc event reply) :
    ∃ after, (next json ttlMs s event).invalidations call = some after ∧
      Clears after (clearNext c reply).pc ∧
        (next json ttlMs s event).redis = (clearNext c reply).redis := by
  obtain ⟨redis,position⟩ := c
  dsimp only at same clears answers
  subst same
  cases answers with
  | scan cursor nextCursor keys =>
    cases clears with
    | scan _ owed =>
      cases keys with
      | nil =>
        refine ⟨SystemConfig.afterPage nextCursor owed,?_,Clears.afterPage nextCursor owed,?_⟩
        · simp [next,waiting,State.setInvalidation]
        · simp [next,waiting,State.setInvalidation,clearNext]
      | cons key rest =>
        refine ⟨_,?_,.del (key :: rest) nextCursor (fun other => owed other ∧ other ∉ key :: rest),?_⟩
        · simp [next,waiting,State.setInvalidation]
        · simp [next,waiting,State.setInvalidation,clearNext]
  | scanRejected cursor nextCursor keys =>
    refine ⟨.resolved,?_,.caught,?_⟩
    · cases clears with
      | scan => simp [next,waiting,State.setInvalidation]
    · cases clears with
      | scan => simp [next,waiting,State.setInvalidation,clearNext]
  | del keys cursor =>
    cases clears with
    | del _ _ owed =>
      refine ⟨SystemConfig.afterPage cursor owed,?_,Clears.afterPage cursor owed,?_⟩
      · simp [next,waiting,State.setInvalidation]
      · simp only [next,waiting,if_true]
        rfl
  | delRejected keys cursor =>
    refine ⟨.resolved,?_,.caught,?_⟩
    · cases clears with
      | del => simp [next,waiting,State.setInvalidation]
    · cases clears with
      | del => simp [next,waiting,State.setInvalidation,clearNext]

end Interleaved

end TribeHub.SystemConfig
