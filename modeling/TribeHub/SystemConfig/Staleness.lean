import Mathlib.Tactic.IntervalCases
import TribeHub.SystemConfig.Interleaving

/-! How old a value returned by `get` can be. The age of a value adds up over
the two cache levels, since a Redis hit is stored in memory with a full lifetime
of its own: a Redis entry outlives its database read by one lifetime and one
call, a memory entry by two of each. -/
namespace TribeHub.SystemConfig
open Expiring Transition

variable {I V : Type}

abbrev History (V : Type) := String → V → Nat → Prop

/-- The value was in the row at some instant `d` with `deadline ≤ d + bound`. -/
def Aged (held : History V) (key : String) (value : V) (deadline bound : Nat) : Prop :=
  ∃ d, held key value d ∧ deadline ≤ d + bound

/-- What a suspended or finished `get` may hold, with `window` one lifetime plus one call. -/
def CallAged (held : History V) (window : Nat) (call : GetCall I V) : Prop :=
  match call.pc with
  | .getFromRedis => True
  | .findByKey => True
  | .setInRedis value => ∃ d ∈ call.reads, held call.key value d
  | .setInMemory value => ∃ read ∈ call.reads, Aged held call.key value read window
  | .returned (.stored value) time =>
    ∃ d, held call.key value d ∧ d ≤ time ∧ time ≤ d + 2 * window
  | .returned (.defaultValue _) _ => True

/-- The age invariant of every cache entry and every call. -/
structure AgeBound (json : JsonCodec V) (window : Nat) (held : History V) (s : State I V) :
    Prop where
  past : ∀ key value d, held key value d → d ≤ s.now
  memory : ∀ service key entry, s.memory service key = some entry →
    Aged held key entry.value entry.expiresAt (2 * window)
  redis : ∀ key entry, s.redis (redisKey key) = some entry →
    ∃ value, entry.value = json.stringify value ∧ Aged held key value entry.expiresAt window
  gets : ∀ call record, s.gets call = some record → CallAged held window record
  late : ∀ call value, s.late call = some value →
    ∃ record, s.gets call = some record ∧ ∃ d ∈ record.reads, held record.key value d

theorem Aged.mono {held later : History V} (grows : ∀ key value d, held key value d → later key value d)
    {key : String} {value : V} {deadline bound : Nat} (aged : Aged held key value deadline bound) :
    Aged later key value deadline bound := by
  obtain ⟨d,was,close⟩ := aged
  exact ⟨d,grows _ _ _ was,close⟩

theorem CallAged.mono {held later : History V}
    (grows : ∀ key value d, held key value d → later key value d)
    {window : Nat} {call : GetCall I V} (aged : CallAged held window call) :
    CallAged later window call := by
  rcases call with ⟨service,key,defaultValue,reads,pc⟩
  cases pc with
  | getFromRedis => trivial
  | findByKey => trivial
  | setInRedis value =>
    obtain ⟨d,member,was⟩ := aged
    exact ⟨d,member,grows _ _ _ was⟩
  | setInMemory value =>
    obtain ⟨read,member,old⟩ := aged
    exact ⟨read,member,old.mono grows⟩
  | returned result time =>
    cases result with
    | stored value =>
      obtain ⟨d,was,before,after⟩ := aged
      exact ⟨d,grows _ _ _ was,before,after⟩
    | defaultValue value => trivial

theorem AgeBound.mono {json : JsonCodec V} {window : Nat} {held later : History V} {s : State I V}
    (inv : AgeBound json window held s)
    (grows : ∀ key value d, held key value d → later key value d)
    (past : ∀ key value d, later key value d → d ≤ s.now) : AgeBound json window later s where
  past := past
  memory service key entry found := (inv.memory service key entry found).mono grows
  redis key entry found := by
    obtain ⟨value,text,aged⟩ := inv.redis key entry found
    exact ⟨value,text,aged.mono grows⟩
  gets call record found := (inv.gets call record found).mono grows
  late call value found := by
    obtain ⟨record,owner,d,member,was⟩ := inv.late call value found
    exact ⟨record,owner,d,member,grows _ _ _ was⟩

/-- The events at which a call writes a cache or returns a value it read. -/
def writesCache : Event I V → Option Nat
  | .redisSet call true => some call
  | .lateSet call => some call
  | .setInMemory call => some call
  | _ => none

/-- No cache write or return of a call comes more than `limit` after one of its reads. -/
def InTime (limit : Nat) (s : State I V) (event : Event I V) : Prop :=
  ∀ call record, writesCache event = some call → s.gets call = some record →
    ∀ read ∈ record.reads, s.now ≤ read + limit

section Step

variable {json : JsonCodec V} {ttlMs limit : Nat} {held : History V} {s : State I V}

theorem AgeBound.setGet (inv : AgeBound json (ttlMs + limit) held s) (call : Nat)
    (record : GetCall I V) (aged : CallAged held (ttlMs + limit) record)
    (keeps : ∀ old, s.gets call = some old → old.key = record.key ∧ old.reads ⊆ record.reads) :
    AgeBound json (ttlMs + limit) held (s.setGet call record) where
  past := inv.past
  memory := inv.memory
  redis := inv.redis
  gets other found read := by
    rcases State.setGet_cases read with ⟨_,equal⟩ | ⟨_,before⟩
    · exact equal ▸ aged
    · exact inv.gets other found before
  late other value pending := by
    obtain ⟨old,owner,d,member,was⟩ := inv.late other value pending
    by_cases same : other = call
    · subst other
      obtain ⟨sameKey,kept⟩ := keeps old owner
      exact ⟨record,by simp [State.setGet],d,kept member,sameKey ▸ was⟩
    · exact ⟨old,by simpa [State.setGet,same] using owner,d,member,was⟩

theorem AgeBound.storeInRedis (inv : AgeBound json (ttlMs + limit) held s)
    (whole : exSeconds ttlMs * 1000 = ttlMs) (key : String) (value : V) (d : Nat)
    (was : held key value d) (close : s.now ≤ d + limit) :
    AgeBound json (ttlMs + limit) held
      {s with toWorld := s.toWorld.storeInRedis json ttlMs key value} where
  past := inv.past
  memory := inv.memory
  redis other entry found := by
    rcases put_cases found with ⟨same,equal⟩ | ⟨_,before⟩
    · have sameKey : other = key := redisKey_injective same
      subst other entry
      exact ⟨value,rfl,d,was,by simp only; omega⟩
    · exact inv.redis other entry before
  gets := inv.gets
  late := inv.late

theorem AgeBound.forgetRedis (inv : AgeBound json (ttlMs + limit) held s)
    (redis : Store String String) (less : ∀ key entry, redis key = some entry → s.redis key = some entry) :
    AgeBound json (ttlMs + limit) held {s with redis := redis} where
  past := inv.past
  memory := inv.memory
  redis key entry found := inv.redis key entry (less _ _ found)
  gets := inv.gets
  late := inv.late

theorem AgeBound.setInvalidation (inv : AgeBound json (ttlMs + limit) held s) (call : Nat)
    (pc : InvalidatePc) : AgeBound json (ttlMs + limit) held (s.setInvalidation call pc) :=
  ⟨inv.past,inv.memory,inv.redis,inv.gets,inv.late⟩

theorem ageBound_initial (initial : Initial s)
    (past : ∀ key value d, held key value d → d ≤ s.now) :
    AgeBound json (ttlMs + limit) held s where
  past := past
  memory service key entry found := by simp [initial.1 service key] at found
  redis key entry found := by simp [initial.2.1 (redisKey key)] at found
  gets call record found := by simp [initial.2.2.1 call] at found
  late call value found := by simp [initial.2.2.2.1 call] at found

variable [DecidableEq I]

theorem AgeBound.setMemory (inv : AgeBound json (ttlMs + limit) held s) (service : I)
    (memory : Store String V)
    (aged : ∀ key entry, memory key = some entry →
      Aged held key entry.value entry.expiresAt (2 * (ttlMs + limit))) :
    AgeBound json (ttlMs + limit) held {s with toWorld := s.toWorld.setMemory service memory} where
  past := inv.past
  memory other key entry found := by
    by_cases same : other = service
    · subst other
      exact aged key entry (by simpa [World.setMemory] using found)
    · exact inv.memory other key entry (by simpa [World.setMemory,same] using found)
  redis := inv.redis
  gets := inv.gets
  late := inv.late

theorem AgeBound.step (inv : AgeBound json (ttlMs + limit) held s)
    (whole : exSeconds ttlMs * 1000 = ttlMs)
    (current : ∀ key value, s.db key = some value → held key value s.now)
    {event : Event I V} {t : State I V} (move : Move json ttlMs s event t)
    (inTime : InTime limit s event) : AgeBound json (ttlMs + limit) held t := by
  cases move with
  | idle => exact inv
  | tick ms =>
    exact {inv with past := fun key value d was => Nat.le_add_right_of_le (inv.past key value d was)}
  | updateRow key value => exact {inv with}
  | deleteRow key => exact {inv with}
  | evict key => exact inv.forgetRedis _ (fun _ _ found => (erase_some found).2)
  | memoryHit call service key defaultValue entry unused found alive =>
    obtain ⟨d,was,close⟩ := inv.memory service key entry found
    exact inv.setGet call _ ⟨d,was,inv.past _ _ _ was,by omega⟩ (by simp [unused])
  | memoryMiss call service key defaultValue unused expired =>
    have waiting := inv.setGet call ⟨service,key,defaultValue,[],.getFromRedis⟩ trivial
      (by simp [unused])
    exact waiting.setMemory service _ (fun _ _ found => inv.memory service _ _ (erase_some found).2)
  | redisHit call service key defaultValue reads raw value waiting found parsed =>
    obtain ⟨entry,stored,text,alive⟩ := live_some.mp found
    obtain ⟨source,written,d,was,close⟩ := inv.redis key entry stored
    have same : source = value := by
      rw [← text,written,json.parse_stringify] at parsed
      exact Option.some.inj parsed
    subst source
    exact inv.setGet call _ ⟨s.now,by simp,d,was,by omega⟩ (by simp [waiting])
  | redisMiss call ok service key defaultValue reads waiting =>
    exact inv.setGet call _ trivial (by simp [waiting])
  | rowFound call service key defaultValue reads value waiting row =>
    exact inv.setGet call _ ⟨s.now,by simp,current key value row⟩ (by simp [waiting])
  | rowMissing call ok service key defaultValue reads waiting missing =>
    exact inv.setGet call _ trivial (by simp [waiting])
  | redisSetOk call service key defaultValue reads value waiting =>
    obtain ⟨d,member,was⟩ := inv.gets call _ waiting
    have close := inTime call _ rfl waiting d member
    have moved := inv.setGet call ⟨service,key,defaultValue,reads,.setInMemory value⟩
      ⟨d,member,d,was,by omega⟩ (by simp [waiting])
    exact moved.storeInRedis whole key value d was close
  | redisSetFailed call service key defaultValue reads value waiting =>
    obtain ⟨d,member,was⟩ := inv.gets call _ waiting
    have moved := inv.setGet call ⟨service,key,defaultValue,reads,.setInMemory value⟩
      ⟨d,member,d,was,by omega⟩ (by simp [waiting])
    refine {moved with late := ?_}
    intro other pending read
    by_cases same : other = call
    · subst other
      have equal : value = pending := by simpa using read
      subst pending
      exact ⟨⟨service,key,defaultValue,reads,.setInMemory value⟩,by simp [State.setGet],d,member,was⟩
    · exact moved.late other pending (by simpa [State.setGet,same] using read)
  | lateSet call record value owner pending =>
    obtain ⟨found,same,d,member,was⟩ := inv.late call value pending
    obtain rfl : record = found := Option.some.inj (owner.symm.trans same)
    have written := inv.storeInRedis whole record.key value d was
      (inTime call record rfl owner d member)
    refine {written with late := ?_}
    intro other rest read
    by_cases same : other = call
    · subst other
      simp at read
    · exact inv.late other rest (by simpa [same] using read)
  | store call service key defaultValue reads value waiting =>
    obtain ⟨read,member,d,was,close⟩ := inv.gets call _ waiting
    have recent := inTime call _ rfl waiting read member
    have past := inv.past _ _ _ was
    have returned := inv.setGet call
      ⟨service,key,defaultValue,reads,.returned (.stored value) s.now⟩
      ⟨d,was,past,by omega⟩ (by simp [waiting])
    refine returned.setMemory service _ (fun other entry found => ?_)
    rcases put_cases found with ⟨rfl,rfl⟩ | ⟨_,before⟩
    · exact ⟨d,was,by simp only; omega⟩
    · exact inv.memory service other entry before
  | invalidate call service key unused =>
    refine (inv.setInvalidation call _).setMemory service _ (fun other entry found => ?_)
    exact inv.memory service other entry (invalidateMemory_some found)
  | delKey call key waiting =>
    exact (inv.setInvalidation call .resolved).forgetRedis _ (fun _ _ found => (erase_some found).2)
  | delPage call keys cursor owed waiting =>
    exact (inv.setInvalidation call _).forgetRedis _ (fun _ _ found => (eraseAll_some found).2)
  | delFailed call => exact inv.setInvalidation call _
  | emptyPage call previous cursor owed waiting => exact inv.setInvalidation call _
  | page call previous cursor keys owed waiting => exact inv.setInvalidation call _
  | scanFailed call cursor keys => exact inv.setInvalidation call _
  | missingScan call cursor owed waiting => exact inv.setInvalidation call _
  | missingDel call keys cursor owed waiting => exact inv.setInvalidation call _

end Step

section Runs

variable [DecidableEq I] {json : JsonCodec V} {ttlSeconds : Option String}

def heldUntil (run : Run (machine (I := I) json ttlSeconds)) (i : Nat) : History V :=
  fun key value d => ∃ j ≤ i, (run.state j).db key = some value ∧ (run.state j).now = d

/-- No call of the run writes a cache, or returns, more than `limit` after one of its reads. -/
def Timely (limit : Nat) (run : Run (machine (I := I) json ttlSeconds)) : Prop :=
  ∀ i event, run.Happens i event → InTime limit (run.state i) event

theorem ageBound_run (run : Run (machine (I := I) json ttlSeconds)) (limit : Nat)
    (timely : Timely limit run) (i : Nat) :
    AgeBound json (cacheTtlMs ttlSeconds + limit) (heldUntil run i) (run.state i) := by
  have past (i : Nat) : ∀ key value d, heldUntil run i key value d → d ≤ (run.state i).now := by
    intro key value d held
    obtain ⟨j,before,_,rfl⟩ := held
    exact clock_monotone run before
  have grows (i : Nat) (key : String) (value : V) (d : Nat) (was : heldUntil run i key value d) :
      heldUntil run (i+1) key value d := by
    obtain ⟨j,before,row,time⟩ := was
    exact ⟨j,Nat.le_succ_of_le before,row,time⟩
  refine run.induct_from 0 (fun i => AgeBound json (cacheTtlMs ttlSeconds + limit)
    (heldUntil run i) (run.state i)) ?_ ?_ ?_ i (Nat.zero_le i)
  · exact ageBound_initial run.init_state (past 0)
  · intro i _ _ same inv
    rw [same]
    exact inv.mono (grows i) (by simpa only [same] using past (i+1))
  · intro i event _ happens _ inv
    have current (key : String) (value : V) (row : (run.state i).db key = some value) :
        heldUntil run i key value (run.state i).now := ⟨i,Nat.le_refl i,row,rfl⟩
    have kept := inv.step (exSeconds_cacheTtlMs ttlSeconds) current (run_move run happens)
      (timely i event happens)
    exact kept.mono (grows i) (past (i+1))

theorem Move.defaulted {ttlMs : Nat} {s t : State I V} {event : Event I V}
    (move : Move json ttlMs s event t) {call : Nat} {record : GetCall I V} {value : V} {time : Nat}
    (found : t.gets call = some record) (finished : record.pc = .returned (.defaultValue value) time) :
    s.gets call = some record ∨
      ∃ ok, event = .findByKey call ok ∧ s.now = time ∧ (ok = false ∨ s.db record.key = none) := by
  cases move with
  | rowMissing other ok service key defaultValue reads waiting missing =>
    rcases State.setGet_cases found with ⟨rfl,rfl⟩ | ⟨_,before⟩
    · simp only [GetPc.returned.injEq] at finished
      exact Or.inr ⟨ok,rfl,finished.2,missing⟩
    · exact Or.inl before
  | memoryHit | memoryMiss | redisHit | redisMiss | rowFound | redisSetOk | redisSetFailed | store =>
    rcases State.setGet_cases found with ⟨rfl,rfl⟩ | ⟨_,before⟩
    · simp at finished
    · exact Or.inl before
  | _ => exact Or.inl found

/-- A default comes only from the call's own database read, which failed or found no row. -/
theorem default_from_read (run : Run (machine (I := I) json ttlSeconds)) (i call : Nat)
    (record : GetCall I V) (value : V) (time : Nat)
    (found : (run.state i).gets call = some record)
    (finished : record.pc = .returned (.defaultValue value) time) :
    ∃ j < i, ∃ ok, run.Happens j (.findByKey call ok) ∧ (run.state j).now = time ∧
      (ok = false ∨ (run.state j).db record.key = none) := by
  revert found
  refine run.induct_from 0 (fun i => (run.state i).gets call = some record → ∃ j < i, ∃ ok,
    run.Happens j (.findByKey call ok) ∧ (run.state j).now = time ∧
      (ok = false ∨ (run.state j).db record.key = none)) ?_ ?_ ?_ i (Nat.zero_le i)
  · intro found
    have unused := run.init_state.2.2.1 call
    rw [unused] at found
    contradiction
  · intro i _ _ same ih found
    obtain ⟨j,before,rest⟩ := ih (same ▸ found)
    exact ⟨j,Nat.lt_succ_of_lt before,rest⟩
  · intro i event _ happens _ ih found
    rcases (run_move run happens).defaulted found finished with
      before | ⟨ok,equal,clock,missing⟩
    · obtain ⟨j,earlier,rest⟩ := ih before
      exact ⟨j,Nat.lt_succ_of_lt earlier,rest⟩
    · exact ⟨i,Nat.lt_succ_self i,ok,equal ▸ happens,clock,missing⟩

/-- The bound on stale reads. A stored value returned at `time` was in the row of the same key
at some instant no later than `time` and at most two lifetimes and two calls before it. -/
theorem get_staleness_bound (run : Run (machine (I := I) json ttlSeconds)) (limit : Nat)
    (timely : Timely limit run) (i call : Nat) (record : GetCall I V)
    (found : (run.state i).gets call = some record) :
    (∀ value time, record.pc = .returned (.stored value) time →
      ∃ j ≤ i, (run.state j).db record.key = some value ∧ (run.state j).now ≤ time ∧
        time ≤ (run.state j).now + 2 * (cacheTtlMs ttlSeconds + limit)) ∧
    (∀ value time, record.pc = .returned (.defaultValue value) time →
      ∃ j < i, ∃ ok, run.Happens j (.findByKey call ok) ∧ (run.state j).now = time ∧
        (ok = false ∨ (run.state j).db record.key = none)) := by
  constructor
  · intro value time finished
    have aged := (ageBound_run run limit timely i).gets call record found
    simp only [CallAged,finished] at aged
    obtain ⟨d,⟨j,before,row,rfl⟩,early,late⟩ := aged
    exact ⟨j,before,row,early,late⟩
  · intro value time finished
    exact default_from_read run i call record value time found finished

end Runs

/-- The row changes while a first instance stores what it read. A second one takes that from Redis
at the last moment of its lifetime, and answers from its own memory for another lifetime. -/
def agedRead : Run (machine (I := Bool) boolJson none) where
  start := idle
  events := [.updateRow "flag" true,.get 0 true "flag" false,.redisGet 0 true,.findByKey 0 true,
    .updateRow "flag" false,.tick 5,.redisSet 0 true,.setInMemory 0,.tick 60000,
    .get 1 false "flag" false,.redisGet 1 true,.tick 5,.setInMemory 1,.tick 60000,
    .get 2 false "flag" false]
  starts := idle_initial
  legal := by simp [Legal,machine,Enabled]

theorem agedRead_writes {i call : Nat} {event : Event Bool Bool} (happens : agedRead.Happens i event)
    (writes : writesCache event = some call) : (call = 0 ∧ (i = 6 ∨ i = 7)) ∨ (call = 1 ∧ i = 12) := by
  have bound := (List.getElem?_eq_some_iff.mp happens).1
  change i < 15 at bound
  interval_cases i <;> cases happens <;> cases writes <;> simp

theorem agedRead_timely : Timely 5 agedRead := by
  intro i event happens call record writes owner read member
  rcases agedRead_writes happens writes with ⟨rfl,rfl | rfl⟩ | ⟨rfl,rfl⟩
  · cases owner
    change 5 ≤ read + 5
    omega
  · cases owner
    change 5 ≤ read + 5
    omega
  · cases owner
    obtain rfl : read = 60005 := List.mem_singleton.mp member
    exact Nat.le_refl 60010

theorem agedRead_bounded : ∃ j ≤ 15, (agedRead.state j).db "flag" = some true ∧
    (agedRead.state j).now ≤ 120010 ∧ 120010 ≤ (agedRead.state j).now + 2 * (cacheTtlMs none + 5) :=
  (get_staleness_bound agedRead 5 agedRead_timely 15 2 _ rfl).1 true 120010 rfl

end TribeHub.SystemConfig
