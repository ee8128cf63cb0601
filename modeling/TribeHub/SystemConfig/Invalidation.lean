import Mathlib.Tactic.IntervalCases
import TribeHub.SystemConfig.Interleaving

/-! What `invalidate` guarantees to later reads. Once both deletions are done, no
cache holds a value from before the update unless a call that read such a value
was still on its way to its memory store while the invalidation ran. -/
namespace TribeHub.SystemConfig
open Expiring Transition

variable {I V : Type}

/-- No Redis or database error, and the row of `key` is only ever updated. -/
def Faultless (key : String) : Event I V → Prop
  | .deleteRow other => other ≠ key
  | .redisGet _ ok => ok = true
  | .findByKey _ ok => ok = true
  | .redisSet _ ok => ok = true
  | .redisDel _ ok => ok = true
  | .scan _ ok _ _ => ok = true
  | _ => True

def RedisFresh (json : JsonCodec V) (key : String) (fresh : V → Prop) (s : State I V) : Prop :=
  ∀ raw, live s.redis s.now (redisKey key) = some raw → ∃ value, raw = json.stringify value ∧ fresh value

def CarriedFresh (key : String) (fresh : V → Prop) (s : State I V) : Prop :=
  ∀ call record, s.gets call = some record → record.key = key →
    ∀ value, record.Carries value → fresh value

def MemoryFresh (service : I) (key : String) (fresh : V → Prop) (s : State I V) : Prop :=
  ∀ entry, s.memory service key = some entry → fresh entry.value

/-- How far the Redis side of an invalidation has got: the key is gone or fresh, or
is still to be deleted by the command the call waits for. -/
def Progress (json : JsonCodec V) (key : String) (fresh : V → Prop) (s : State I V) :
    Option InvalidatePc → Prop
  | none => False
  | some (.deleteFromRedis other) => other = key
  | some (.scan _ owed) => RedisFresh json key fresh s ∨ owed (redisKey key)
  | some (.del keys cursor owed) =>
    (cursor = "0" → ¬owed (redisKey key)) ∧
      (RedisFresh json key fresh s ∨ owed (redisKey key) ∨ redisKey key ∈ keys)
  | some .resolved => RedisFresh json key fresh s

section Step

variable {json : JsonCodec V} {ttlMs : Nat} {s t : State I V} {event : Event I V}
  {key : String} {fresh : V → Prop}

theorem redisFresh_absent (absent : live s.redis s.now (redisKey key) = none) :
    RedisFresh json key fresh s := by
  intro raw read
  rw [absent] at read
  contradiction

theorem RedisFresh.mono {later : V → Prop} (redis : RedisFresh json key fresh s)
    (grows : ∀ value, fresh value → later value) : RedisFresh json key later s := by
  intro raw read
  obtain ⟨value,text,new⟩ := redis raw read
  exact ⟨value,text,grows value new⟩

theorem CarriedFresh.mono {later : V → Prop} (carried : CarriedFresh key fresh s)
    (grows : ∀ value, fresh value → later value) : CarriedFresh key later s :=
  fun call record owner same value carries => grows value (carried call record owner same value carries)

theorem progress_afterPage {cursor : String} {owed : String → Prop}
    (ended : cursor = "0" → ¬owed (redisKey key))
    (state : RedisFresh json key fresh s ∨ owed (redisKey key)) :
    Progress json key fresh s (some (afterPage cursor owed)) := by
  unfold afterPage
  split
  · rename_i last
    rcases state with redis | still
    · exact redis
    · exact absurd still (ended last)
  · exact state

theorem progress_mono {later : V → Prop} {pc : Option InvalidatePc}
    (progress : Progress json key fresh s pc)
    (kept : RedisFresh json key fresh s → RedisFresh json key later t) :
    Progress json key later t pc := by
  match pc with
  | none => exact progress
  | some (.deleteFromRedis other) => exact progress
  | some (.scan cursor owed) => exact progress.imp_left kept
  | some (.del keys cursor owed) => exact ⟨progress.1,progress.2.imp_left kept⟩
  | some .resolved => exact kept progress

theorem progress_set {pcs : Nat → Option InvalidatePc} {other call : Nat}
    {before : Option InvalidatePc} {pc : InvalidatePc} (waiting : pcs other = before)
    (kept : Progress json key fresh t (pcs call))
    (moved : Progress json key fresh t before → Progress json key fresh t (some pc)) :
    Progress json key fresh t (Function.update pcs other (some pc) call) := by
  by_cases same : other = call
  · subst other
    rw [waiting] at kept
    simpa using moved kept
  · simpa [Function.update_of_ne (Ne.symm same)] using kept

structure Clearing (json : JsonCodec V) (service : I) (key : String) (call : Nat)
    (fresh : V → Prop) (s : State I V) : Prop where
  memory : MemoryFresh service key fresh s
  progress : Progress json key fresh s (s.invalidations call)

/-- Neither cache level nor a call under way holds an outdated value. -/
structure Clean (json : JsonCodec V) (service : I) (key : String) (fresh : V → Prop)
    (s : State I V) : Prop where
  memory : MemoryFresh service key fresh s
  redis : RedisFresh json key fresh s
  carried : CarriedFresh key fresh s

theorem Clearing.mono {service : I} {call : Nat} {later : V → Prop}
    (clearing : Clearing json service key call fresh s)
    (grows : ∀ value, fresh value → later value) : Clearing json service key call later s :=
  ⟨fun entry found => grows _ (clearing.memory entry found),
    progress_mono clearing.progress (fun redis => redis.mono grows)⟩

theorem Clean.mono {service : I} {later : V → Prop} (clean : Clean json service key fresh s)
    (grows : ∀ value, fresh value → later value) : Clean json service key later s :=
  ⟨fun entry found => grows _ (clean.memory entry found),clean.redis.mono grows,
    clean.carried.mono grows⟩

variable [DecidableEq I]

theorem MemoryFresh.step {service : I} (memory : MemoryFresh service key fresh s)
    (carried : CarriedFresh key fresh s) (move : Move json ttlMs s event t) :
    MemoryFresh service key fresh t := by
  intro entry found
  rcases move.memory_some found with before | ⟨call,record,owner,same,storing⟩
  · exact memory entry before
  · exact carried call record owner same entry.value (Or.inr storing)

theorem RedisFresh.step (redis : RedisFresh json key fresh s) (carried : CarriedFresh key fresh s)
    (onTime : ∀ call, s.late call = none) (move : Move json ttlMs s event t) :
    RedisFresh json key fresh t := by
  intro raw read
  obtain ⟨entry,found,rfl,alive⟩ := live_some.mp read
  rcases move.redis_some found with before | ⟨call,record,value,owner,same,text,writing⟩
  · exact redis entry.value (live_some.mpr ⟨entry,before,rfl,Nat.le_trans move.now_le alive⟩)
  · rcases writing with waiting | late
    · exact ⟨value,text,carried call record owner same value (Or.inl waiting)⟩
    · rw [onTime call] at late
      contradiction

theorem CarriedFresh.step (carried : CarriedFresh key fresh s)
    (redis : RedisFresh json key fresh s) (row : ∀ value, s.db key = some value → fresh value)
    (move : Move json ttlMs s event t) : CarriedFresh key fresh t := by
  intro call record found same value carries
  subst same
  rcases move.carries found carries with ⟨old,owner,sameKey,before⟩ | ⟨raw,hit,parsed⟩ | read
  · exact carried call old owner sameKey value before
  · obtain ⟨source,text,new⟩ := redis raw hit
    rw [text,json.parse_stringify] at parsed
    exact Option.some.inj parsed ▸ new
  · exact row value read

theorem late_step (onTime : ∀ call, s.late call = none) (faultless : Faultless key event)
    (move : Move json ttlMs s event t) : ∀ call, t.late call = none := by
  intro call
  cases move with
  | redisSetFailed other service key defaultValue reads value waiting =>
    simp [Faultless] at faultless
  | lateSet other record value owner pending =>
    rw [onTime other] at pending
    contradiction
  | _ => exact onTime call

theorem Progress.step {call : Nat} (progress : Progress json key fresh s (s.invalidations call))
    (carried : CarriedFresh key fresh s) (onTime : ∀ call, s.late call = none)
    (faultless : Faultless key event) (enabled : Enabled s event)
    (move : Move json ttlMs s event t) : Progress json key fresh t (t.invalidations call) := by
  have kept : Progress json key fresh t (s.invalidations call) :=
    progress_mono progress (fun redis => redis.step carried onTime move)
  cases move with
  | invalidate other service argument unused =>
    refine progress_set unused kept ?_
    intro unstarted
    exact unstarted.elim
  | delKey other deleted waiting =>
    refine progress_set waiting kept ?_
    intro target
    have same : deleted = key := target
    subst deleted
    exact redisFresh_absent (live_none (erase_same _ _))
  | delPage other keys cursor owed waiting =>
    refine progress_set waiting kept ?_
    rintro ⟨ended,state⟩
    refine progress_afterPage ended ?_
    rcases state with redis | still | paged
    · exact Or.inl redis
    · exact Or.inr still
    · exact Or.inl (redisFresh_absent (live_none (by simp [eraseAll,paged])))
  | delFailed other => simp [Faultless] at faultless
  | scanFailed other cursor keys => simp [Faultless] at faultless
  | emptyPage other previous cursor owed waiting =>
    refine progress_set waiting kept ?_
    intro state
    refine progress_afterPage (fun last still => ?_) state
    have returned := enabled.2 rfl last previous owed waiting (redisKey key) still
    simp at returned
  | page other previous cursor keys owed waiting =>
    refine progress_set waiting kept ?_
    intro state
    refine ⟨fun last still => ?_,?_⟩
    · exact still.2 (enabled.2 rfl last previous owed waiting (redisKey key) still.1)
    · rcases state with redis | still
      · exact Or.inl redis
      · by_cases paged : redisKey key ∈ keys
        · exact Or.inr (Or.inr paged)
        · exact Or.inr (Or.inl ⟨still,paged⟩)
  | missingScan other cursor owed waiting =>
    refine progress_set waiting kept ?_
    intro state
    rcases state with redis | still
    · exact Or.inl redis
    · by_cases absent : live s.redis s.now (redisKey key) = none
      · exact Or.inl (redisFresh_absent absent)
      · exact Or.inr ⟨still,absent⟩
  | missingDel other keys cursor owed waiting =>
    refine progress_set waiting kept ?_
    rintro ⟨ended,state⟩
    refine ⟨fun last still => ended last still.1,?_⟩
    rcases state with redis | still | paged
    · exact Or.inl redis
    · by_cases absent : live s.redis s.now (redisKey key) = none
      · exact Or.inl (redisFresh_absent absent)
      · exact Or.inr (Or.inl ⟨still,absent⟩)
    · exact Or.inr (Or.inr paged)
  | _ => exact kept

theorem Clearing.step {service : I} {call : Nat} (clearing : Clearing json service key call fresh s)
    (carried : CarriedFresh key fresh s) (onTime : ∀ call, s.late call = none)
    (faultless : Faultless key event) (enabled : Enabled s event)
    (move : Move json ttlMs s event t) : Clearing json service key call fresh t :=
  ⟨clearing.memory.step carried move,
    clearing.progress.step carried onTime faultless enabled move⟩

theorem Clean.step {service : I} (clean : Clean json service key fresh s)
    (onTime : ∀ call, s.late call = none) (row : ∀ value, s.db key = some value → fresh value)
    (move : Move json ttlMs s event t) : Clean json service key fresh t :=
  ⟨clean.memory.step clean.carried move,clean.redis.step clean.carried onTime move,
    clean.carried.step clean.redis row move⟩

theorem invalidate_begins (ttlMs : Nat) {service : I} {call : Nat} {argument : Option String}
    (unused : s.invalidations call = none) (covers : Covers argument key) :
    Clearing json service key call fresh
      (next json ttlMs s (.invalidate call service argument)) := by
  simp only [next,unused]
  constructor
  · intro entry found
    have read : invalidateMemory (s.memory service) argument key = some entry := by
      simpa [World.setMemory] using found
    rw [invalidateMemory_covers _ covers] at read
    contradiction
  · change Progress json key fresh _ (Function.update s.invalidations call (some _) call)
    rw [Function.update_self]
    rcases covers with all | one
    · simp only [all]
      exact Or.inr ⟨key,rfl⟩
    · simp only [one]
      rfl

end Step

section Runs

variable [DecidableEq I] {json : JsonCodec V} {ttlSeconds : Option String}

/-- The row of `key` held the value at or after the update at position `update`, up to `i`. -/
def heldSince (run : Run (machine (I := I) json ttlSeconds)) (update : Nat) (key : String)
    (i : Nat) (value : V) : Prop :=
  ∃ j, update < j ∧ j ≤ i ∧ (run.state j).db key = some value

/-- An update of the row, then an invalidation of its key that has resolved. -/
structure Invalidated (run : Run (machine (I := I) json ttlSeconds)) (service : I) (key : String)
    (update begun resolved call : Nat) (argument : Option String) : Prop where
  updated : ∃ value, run.Happens update (.updateRow key value)
  committed : update < begun
  unused : (run.state begun).invalidations call = none
  begins : run.Happens begun (.invalidate call service argument)
  covers : Covers argument key
  after : begun < resolved
  resolves : (run.state resolved).invalidations call = some .resolved

def ReadsUpdated (run : Run (machine (I := I) json ttlSeconds)) (service : I) (key : String)
    (update resolved : Nat) : Prop :=
  ∀ start call defaultValue, resolved ≤ start →
    run.Happens start (.get call service key defaultValue) → (run.state start).gets call = none →
    ∀ i record result time, start < i → (run.state i).gets call = some record →
      record.pc = .returned result time →
      ∃ value, result = .stored value ∧ heldSince run update key i value

def InvalidationEffective (I : Type) [DecidableEq I] {V : Type} (json : JsonCodec V)
    (ttlSeconds : Option String) : Prop :=
  ∀ (run : Run (machine (I := I) json ttlSeconds)) service key update begun resolved call argument,
    (∀ i event, run.Happens i event → Faultless key event) →
    Invalidated run service key update begun resolved call argument →
    ReadsUpdated run service key update resolved

/-- While the invalidation runs, no call holds a value the row had only before the update. -/
def NoStaleCarrier (run : Run (machine (I := I) json ttlSeconds)) (key : String)
    (update begun resolved : Nat) : Prop :=
  ∀ i, begun ≤ i → i ≤ resolved → CarriedFresh key (heldSince run update key i) (run.state i)

variable {run : Run (machine (I := I) json ttlSeconds)} {service : I} {key : String}
  {update begun resolved call : Nat} {argument : Option String}

theorem heldSince.succ {i : Nat} {value : V} (held : heldSince run update key i value) :
    heldSince run update key (i+1) value := by
  obtain ⟨j,after,before,row⟩ := held
  exact ⟨j,after,Nat.le_succ_of_le before,row⟩

theorem late_run (faultless : ∀ i event, run.Happens i event → Faultless key event) (i : Nat) :
    ∀ call, (run.state i).late call = none := by
  refine run.induct_from 0 (fun i => ∀ call, (run.state i).late call = none) ?_ ?_ ?_ i
    (Nat.zero_le i)
  · exact run.init_state.2.2.2.1
  · intro i _ _ same ih
    rw [same]
    exact ih
  · intro i event _ happens _ ih
    exact late_step ih (faultless i event happens) (run_move run happens)

theorem row_present (faultless : ∀ i event, run.Happens i event → Faultless key event)
    (updated : ∃ value, run.Happens update (.updateRow key value)) (i : Nat) (after : update < i) :
    ∃ value, (run.state i).db key = some value := by
  refine run.induct_from (update+1) (fun i => ∃ value, (run.state i).db key = some value)
    ?_ ?_ ?_ i after
  · obtain ⟨value,happens⟩ := updated
    rw [run.state_succ happens]
    exact ⟨value,Function.update_self ..⟩
  · intro i _ _ same ih
    rw [same]
    exact ih
  · intro i event _ happens _ ih
    obtain ⟨value,row⟩ := ih
    refine (run_move run happens).row_kept row ?_
    intro equal
    subst equal
    exact faultless i _ happens rfl

theorem clearing_run (faultless : ∀ i event, run.Happens i event → Faultless key event)
    (scene : Invalidated run service key update begun resolved call argument)
    (noStale : NoStaleCarrier run key update begun resolved) (i : Nat) (after : begun < i) :
    i ≤ resolved → Clearing json service key call (heldSince run update key i) (run.state i) := by
  refine run.induct_from (begun+1) (fun i => i ≤ resolved →
    Clearing json service key call (heldSince run update key i) (run.state i)) ?_ ?_ ?_ i after
  · intro _
    rw [run.state_succ scene.begins]
    exact invalidate_begins (cacheTtlMs ttlSeconds) scene.unused scene.covers
  · intro i _ _ same ih bound
    rw [same]
    exact (ih (Nat.le_of_succ_le bound)).mono (fun _ => heldSince.succ)
  · intro i event started happens _ ih bound
    have carried := noStale i (Nat.le_of_succ_le started) (Nat.le_of_succ_le bound)
    have cleared := (ih (Nat.le_of_succ_le bound)).step carried (late_run faultless i)
      (faultless i event happens) (run.enabled happens) (run_move run happens)
    exact cleared.mono (fun _ => heldSince.succ)

theorem clean_run (faultless : ∀ i event, run.Happens i event → Faultless key event)
    (scene : Invalidated run service key update begun resolved call argument)
    (noStale : NoStaleCarrier run key update begun resolved) (i : Nat) (after : resolved ≤ i) :
    Clean json service key (heldSince run update key i) (run.state i) := by
  refine run.induct_from resolved (fun i =>
    Clean json service key (heldSince run update key i) (run.state i)) ?_ ?_ ?_ i after
  · have cleared := clearing_run faultless scene noStale resolved scene.after (Nat.le_refl _)
    have redis := cleared.progress
    rw [scene.resolves] at redis
    exact ⟨cleared.memory,redis,noStale resolved (Nat.le_of_lt scene.after) (Nat.le_refl _)⟩
  · intro i _ _ same ih
    rw [same]
    exact ih.mono (fun _ => heldSince.succ)
  · intro i event started happens _ ih
    have order := scene.committed
    have later := scene.after
    have row (value : V) (found : (run.state i).db key = some value) :
        heldSince run update key i value := ⟨i,by omega,Nat.le_refl i,found⟩
    exact (ih.step (late_run faultless i) row (run_move run happens)).mono
      (fun _ => heldSince.succ)

/-- If no call carries an outdated value while the invalidation runs, every later read is fresh. -/
theorem invalidate_effective (faultless : ∀ i event, run.Happens i event → Faultless key event)
    (scene : Invalidated run service key update begun resolved call argument)
    (noStale : NoStaleCarrier run key update begun resolved) :
    ReadsUpdated run service key update resolved := by
  intro start get defaultValue after starts unused i
  have order := scene.committed
  have later := scene.after
  suffices always : start < i → ∃ record, (run.state i).gets get = some record ∧
      record.key = key ∧ ∀ result time, record.pc = .returned result time →
        ∃ value, result = .stored value ∧ heldSince run update key i value by
    intro record result time bound found finished
    obtain ⟨actual,same,_,fresh⟩ := always bound
    obtain rfl := Option.some.inj (found.symm.trans same)
    exact fresh result time finished
  intro bound
  refine run.induct_from (start+1) (fun i => ∃ record, (run.state i).gets get = some record ∧
    record.key = key ∧ ∀ result time, record.pc = .returned result time →
      ∃ value, result = .stored value ∧ heldSince run update key i value) ?_ ?_ ?_ i bound
  · rw [run.state_succ starts]
    obtain ⟨pc,found,waiting | ⟨entry,read,answered⟩⟩ :=
      get_begins json (cacheTtlMs ttlSeconds) (run.state start) get service key defaultValue unused
    · exact ⟨_,found,rfl,fun result time same => by simp [waiting] at same⟩
    · refine ⟨_,found,rfl,fun result time same => ?_⟩
      have fresh := (clean_run faultless scene noStale start after).memory entry read
      simp only [answered,GetPc.returned.injEq] at same
      exact ⟨entry.value,same.1.symm,fresh.succ⟩
  · intro i _ _ same ih
    obtain ⟨record,found,sameKey,fresh⟩ := ih
    refine ⟨record,same ▸ found,sameKey,fun result time finished => ?_⟩
    obtain ⟨value,equal,held⟩ := fresh result time finished
    exact ⟨value,equal,held.succ⟩
  · intro i event started happens _ ih
    obtain ⟨old,before,sameKey,fresh⟩ := ih
    obtain ⟨record,found,kept,outcome⟩ := (run_move run happens).returns before
    refine ⟨record,found,kept.trans sameKey,fun result time finished => ?_⟩
    rcases outcome result time finished with same | ⟨value,equal,carries⟩ | ⟨ok,equal,missing⟩
    · obtain ⟨value,equal,held⟩ := fresh result time same
      exact ⟨value,equal,held.succ⟩
    · have carried := (clean_run faultless scene noStale i (by omega)).carried
      exact ⟨value,equal,(carried get old before sameKey value carries).succ⟩
    · -- The read succeeds and the row is there, so the default is never the answer.
      subst equal
      have succeeded : ok = true := faultless i _ happens
      obtain ⟨value,row⟩ := row_present faultless scene.updated i (by omega)
      rw [sameKey,row] at missing
      simp [succeeded] at missing

end Runs

def refresh : Run (machine (I := Unit) boolJson none) where
  start := idle
  events := [.updateRow "flag" false,.get 0 () "flag" false,.redisGet 0 true,.findByKey 0 true,
    .redisSet 0 true,.setInMemory 0,.updateRow "flag" true,.invalidate 0 () (some "flag"),
    .redisDel 0 true,.get 1 () "flag" false,.redisGet 1 true,.findByKey 1 true,.redisSet 1 true,
    .setInMemory 1]
  starts := idle_initial
  legal := by simp [Legal,machine,Enabled]

theorem refresh_faultless (i : Nat) (event : Event Unit Bool) (happens : refresh.Happens i event) :
    Faultless "flag" event := by
  have member := List.mem_of_getElem? happens
  simp only [refresh,List.mem_cons,List.not_mem_nil,or_false] at member
  rcases member with rfl | rfl | rfl | rfl | rfl | rfl | rfl | rfl | rfl | rfl | rfl | rfl | rfl | rfl <;>
    simp [Faultless]

theorem refresh_reads_updated : ReadsUpdated refresh () "flag" 6 9 := by
  have scene : Invalidated refresh () "flag" 6 7 9 0 (some "flag") :=
    ⟨⟨true,rfl⟩,by decide,rfl,rfl,by simp [Covers,singleKey],by decide,rfl⟩
  have noStale : NoStaleCarrier refresh "flag" 6 7 9 := by
    intro i started bound get record found
    interval_cases i <;> (rcases get with _ | n <;> cases found) <;> simp [GetCall.Carries]
  exact invalidate_effective refresh_faultless scene noStale

/-- A read that took the old value from the database stores it after both deletions. -/
def staleWriter : Run (machine (I := Unit) boolJson none) where
  start := idle
  events := [.updateRow "flag" false,.get 0 () "flag" false,.redisGet 0 true,.findByKey 0 true,
    .updateRow "flag" true,.invalidate 0 () (some "flag"),.redisDel 0 true,.redisSet 0 true,
    .setInMemory 0,.get 1 () "flag" true]
  starts := idle_initial
  legal := by simp [Legal,machine,Enabled]

theorem staleWriter_faultless (i : Nat) (event : Event Unit Bool)
    (happens : staleWriter.Happens i event) : Faultless "flag" event := by
  have member := List.mem_of_getElem? happens
  simp only [staleWriter,List.mem_cons,List.not_mem_nil,or_false] at member
  rcases member with rfl | rfl | rfl | rfl | rfl | rfl | rfl | rfl | rfl | rfl <;> simp [Faultless]

theorem invalidation_not_effective : ¬InvalidationEffective Unit boolJson none := by
  intro effective
  have scene : Invalidated staleWriter () "flag" 4 5 7 0 (some "flag") :=
    ⟨⟨true,rfl⟩,by decide,rfl,rfl,by simp [Covers,singleKey],by decide,rfl⟩
  have reads := effective staleWriter () "flag" 4 5 7 0 (some "flag") staleWriter_faultless scene
  obtain ⟨value,equal,j,after,before,row⟩ :
      ∃ value, Result.stored false = .stored value ∧ heldSince staleWriter 4 "flag" 10 value :=
    reads 9 1 true (by decide) rfl rfl 10 _ _ _ (by decide) rfl rfl
  cases equal
  interval_cases j <;> cases row

end TribeHub.SystemConfig
