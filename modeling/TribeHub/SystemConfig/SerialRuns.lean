import TribeHub.Library.Simulation
import TribeHub.SystemConfig.ClearNamespace
import TribeHub.SystemConfig.MonotoneReads
import TribeHub.SystemConfig.Staleness

/-! Runs of whole operations as runs of the interleaved service. Each operation is answered by
its own steps, one after the other and at one instant, so that what holds of every
interleaving holds of every serial run. -/
namespace TribeHub.SystemConfig
open Expiring Transition

variable {I V : Type}

def Event.caller : Event I V → Option Nat
  | .get call _ _ _ => some call
  | .redisGet call _ => some call
  | .findByKey call _ => some call
  | .redisSet call _ => some call
  | .setInMemory call => some call
  | _ => none

def Event.invalidator : Event I V → Option Nat
  | .invalidate call _ _ => some call
  | .redisDel call _ => some call
  | .scan call _ _ _ => some call
  | .missing call => some call
  | _ => none

section Frames

variable [DecidableEq I] {json : JsonCodec V} {ttlMs : Nat} {s t : State I V} {event : Event I V}

theorem Move.gets_other (move : Move json ttlMs s event t) {call : Nat}
    (apart : event.caller ≠ some call) : t.gets call = s.gets call := by
  cases move with
  | memoryHit other | memoryMiss other | redisHit other | redisMiss other | rowFound other
  | rowMissing other | redisSetOk other | redisSetFailed other | store other =>
    have distinct : call ≠ other := fun same => apart (congrArg some same.symm)
    exact Function.update_of_ne distinct ..
  | _ => rfl

theorem Move.invalidations_other (move : Move json ttlMs s event t) {call : Nat}
    (apart : event.invalidator ≠ some call) : t.invalidations call = s.invalidations call := by
  cases move with
  | invalidate other | delKey other | delPage other | delFailed other | emptyPage other | page other
  | scanFailed other | missingScan other | missingDel other =>
    have distinct : call ≠ other := fun same => apart (congrArg some same.symm)
    exact Function.update_of_ne distinct ..
  | _ => rfl

/-- All reads of the call were made at this very instant. -/
def ReadsNow (call : Nat) (s : State I V) : Prop :=
  ∀ record, s.gets call = some record → ∀ read ∈ record.reads, s.now ≤ read

theorem ReadsNow.step {call : Nat} (fresh : ReadsNow call s) (own : event.caller = some call)
    (move : Move json ttlMs s event t) : ReadsNow call t := by
  intro record found read member
  cases move with
  | memoryHit other | memoryMiss other =>
    obtain rfl := Option.some.inj own
    obtain rfl := Option.some.inj (found.symm.trans (Function.update_self ..))
    simp at member
  | redisHit other _ _ _ _ _ _ waiting | redisMiss other _ _ _ _ _ waiting
  | rowFound other _ _ _ _ _ waiting | rowMissing other _ _ _ _ _ waiting =>
    obtain rfl := Option.some.inj own
    obtain rfl := Option.some.inj (found.symm.trans (Function.update_self ..))
    rcases List.mem_cons.mp member with rfl | before
    · exact Nat.le_refl _
    · exact fresh _ waiting read before
  | redisSetOk other _ _ _ _ _ waiting | redisSetFailed other _ _ _ _ _ waiting
  | store other _ _ _ _ _ waiting =>
    obtain rfl := Option.some.inj own
    obtain rfl := Option.some.inj (found.symm.trans (Function.update_self ..))
    exact fresh _ waiting read member
  | idle => exact fresh record found read member
  | _ => contradiction

end Frames

theorem inTime_silent {s : State I V} {event : Event I V} (silent : writesCache event = none) :
    InTime 0 s event := by
  intro call record writes
  rw [silent] at writes
  contradiction

/-- The interleaved service in which no cache write comes after time has passed. -/
def timelyMachine [DecidableEq I] (json : JsonCodec V) (ttlSeconds : Option String) :
    Machine (State I V) (Event I V) :=
  (machine json ttlSeconds).restrict (InTime 0)

section Blocks

variable [DecidableEq I] {json : JsonCodec V} {ttlSeconds : Option String} {s : State I V}

theorem call_legal {call : Nat} (events : List (Event I V)) (fresh : ReadsNow call s)
    (own : ∀ event ∈ events, event.caller = some call) :
    Legal (timelyMachine json ttlSeconds) s events := by
  induction events generalizing s with
  | nil => trivial
  | cons event rest ih =>
    have mine := own event List.mem_cons_self
    refine ⟨⟨?_,fun writer record writes found read member => ?_⟩,
      ih (fresh.step mine (next_move json (cacheTtlMs ttlSeconds) s event))
        (fun later listed => own later (List.mem_cons_of_mem _ listed))⟩
    · cases event with
      | scan => simp [Event.caller] at mine
      | _ => trivial
    · have same : writer = call := by
        cases event with
        | redisSet other ok => cases ok <;> simp_all [writesCache,Event.caller]
        | setInMemory other => simp_all [writesCache,Event.caller]
        | _ => simp [writesCache,Event.caller] at writes mine
      subst same
      exact fresh record found read member

theorem final_gets {call : Nat} (events : List (Event I V))
    (apart : ∀ event ∈ events, event.caller ≠ some call) :
    (final (machine json ttlSeconds) s events).gets call = s.gets call := by
  induction events generalizing s with
  | nil => rfl
  | cons event rest ih =>
    rw [final_cons,ih (fun later listed => apart later (List.mem_cons_of_mem _ listed))]
    exact (next_move json (cacheTtlMs ttlSeconds) s event).gets_other (apart event List.mem_cons_self)

theorem final_invalidations {call : Nat} (events : List (Event I V))
    (apart : ∀ event ∈ events, event.invalidator ≠ some call) :
    (final (machine json ttlSeconds) s events).invalidations call = s.invalidations call := by
  induction events generalizing s with
  | nil => rfl
  | cons event rest ih =>
    rw [final_cons,ih (fun later listed => apart later (List.mem_cons_of_mem _ listed))]
    exact (next_move json (cacheTtlMs ttlSeconds) s event).invalidations_other
      (apart event List.mem_cons_self)

theorem final_key (json : JsonCodec V) (ttlSeconds : Option String) {call : Nat} {old : GetCall I V}
    (events : List (Event I V))
    (before : s.gets call = some old) :
    ∃ record, (final (machine json ttlSeconds) s events).gets call = some record ∧
      record.key = old.key := by
  induction events generalizing s old with
  | nil => exact ⟨old,before,rfl⟩
  | cons event rest ih =>
    obtain ⟨record,found,same,_⟩ := (next_move json (cacheTtlMs ttlSeconds) s event).returns before
    obtain ⟨later,read,kept⟩ := ih found
    exact ⟨later,read,kept.trans same⟩

end Blocks

/-- The service between two operations: calls from some number on have not begun, and Redis
holds finitely many keys. -/
structure Serial (w : World I V) (s : State I V) : Prop where
  world : s.toWorld = w
  fresh : ∃ n, ∀ call, n ≤ call → s.gets call = none ∧ s.invalidations call = none
  listed : ∃ stored : List String, ∀ key, w.redis key ≠ none → key ∈ stored

section Operations

variable [DecidableEq I] {json : JsonCodec V} {version : V → Nat} {ttlSeconds : Option String}
  {w : World I V} {s : State I V}

/-- A `get` is answered by a call that returns what the whole operation returns. -/
def Performs (json : JsonCodec V) (ttlSeconds : Option String) (w : World I V) :
    Operation I V → State I V → List (Event I V) → Prop
  | .get service key defaultValue replies,s,block =>
    ∃ call record, (final (machine json ttlSeconds) s block).gets call = some record ∧
      record.key = key ∧ record.pc =
        .returned (get json (cacheTtlMs ttlSeconds) w service key defaultValue replies).1 w.now
  | _,_,_ => True

theorem listed_operate (json : JsonCodec V)
    (listed : ∃ stored : List String, ∀ key, w.redis key ≠ none → key ∈ stored)
    (ttlMs : Nat) (operation : Operation I V) : ∃ stored : List String, ∀ key,
      (operate json ttlMs w operation).redis key ≠ none → key ∈ stored := by
  obtain ⟨stored,all⟩ := listed
  have less {redis : Store String String}
      (kept : ∀ key entry, redis key = some entry → w.redis key = some entry) :
      ∀ key, redis key ≠ none → key ∈ stored := by
    intro key present
    obtain ⟨entry,found⟩ := Option.ne_none_iff_exists'.mp present
    exact all key (by simp [kept key entry found])
  cases operation with
  | tick ms => exact ⟨stored,all⟩
  | evict key => exact ⟨stored,less (fun _ _ found => (erase_some found).2)⟩
  | updateRow key value => exact ⟨stored,all⟩
  | invalidate service argument => exact ⟨stored,less (fun _ _ => invalidate_redis_some)⟩
  | get service key defaultValue replies =>
    have path := get_path json ttlMs w service key defaultValue replies
    simp only [operate]
    generalize get json ttlMs w service key defaultValue replies = answer at path ⊢
    cases path with
    | memoryHit | redisHit | noRow => exact ⟨stored,all⟩
    | row value written expired found =>
      cases written with
      | false => exact ⟨stored,all⟩
      | true =>
        refine ⟨redisKey key :: stored,fun other present => ?_⟩
        by_cases same : other = redisKey key
        · exact List.mem_cons.mpr (Or.inl same)
        · refine List.mem_cons_of_mem _ (all other ?_)
          simpa [World.storeInMemory,World.setMemory,World.storeInRedis,setInRedis,same] using present

theorem serial_get (serial : Serial w s) (service : I) (key : String) (defaultValue : V)
    (replies : Replies) : ∃ block,
      Performs json ttlSeconds w (.get service key defaultValue replies) s block ∧
        Legal (timelyMachine json ttlSeconds) s block ∧
          Serial (operate json (cacheTtlMs ttlSeconds) w (.get service key defaultValue replies))
            (final (machine json ttlSeconds) s block) := by
  obtain ⟨rfl,⟨n,fresh⟩,listed⟩ := serial
  obtain ⟨unused,_⟩ := fresh n (Nat.le_refl n)
  let rest : List (Event I V) := [.redisGet n replies.redisGet,.findByKey n replies.findByKey,
    .redisSet n replies.redisSet,.setInMemory n]
  have own : ∀ event ∈ Event.get n service key defaultValue :: rest, event.caller = some n := by
    simp [rest,Event.caller]
  obtain ⟨world,record,found,returned⟩ := uninterrupted_get json ttlSeconds s n service key
    defaultValue replies unused
  refine ⟨.get n service key defaultValue :: rest,?_,?_,world,⟨n+1,fun call later => ?_⟩,
    listed_operate json listed _ (.get service key defaultValue replies)⟩
  · obtain ⟨pc,begun,_⟩ := get_begins json (cacheTtlMs ttlSeconds) s n service key defaultValue unused
    obtain ⟨same,read,named⟩ := final_key json ttlSeconds rest begun
    obtain rfl := Option.some.inj (found.symm.trans read)
    exact ⟨n,record,found,named,returned⟩
  · refine call_legal _ (fun old found => ?_) own
    rw [unused] at found
    contradiction
  · obtain ⟨free,idle⟩ := fresh call (Nat.le_of_succ_le later)
    have distinct : some n ≠ some call := by
      intro same
      have equal := Option.some.inj same
      omega
    rw [final_gets _ (fun event listed => own event listed ▸ distinct),
      final_invalidations _ (by simp [rest,Event.invalidator])]
    exact ⟨free,idle⟩

/-- One page of all namespaced keys ends the iteration. -/
theorem clear_block (json : JsonCodec V) (ttlSeconds : Option String) (s : State I V) {call : Nat}
    (unused : s.invalidations call = none) (service : I)
    {argument : Option String} (everything : singleKey argument = none) (keys : List String)
    (covered : ∀ key, InNamespace key → s.redis key ≠ none → key ∈ keys)
    (named : ∀ key ∈ keys, InNamespace key) :
    let block : List (Event I V) :=
      [.invalidate call service argument,.missing call,.scan call true "0" keys,.redisDel call true]
    Legal (timelyMachine json ttlSeconds) s block ∧
      (final (machine json ttlSeconds) s block).toWorld =
        SystemConfig.invalidate s.toWorld service argument := by
  have cleared : eraseAll s.redis keys = clearRedisNamespace s.redis := by
    funext key
    unfold eraseAll clearRedisNamespace
    by_cases within : InNamespace key
    · rw [if_pos (List.isPrefixOf_iff_prefix.mpr ((inNamespace_iff key).mp within))]
      split
      · rfl
      · rename_i absent
        by_contra present
        exact absent (covered key within present)
    · rw [if_neg (fun listed => within (named key listed)),if_neg]
      exact fun before => within ((inNamespace_iff key).mpr (List.isPrefixOf_iff_prefix.mp before))
  constructor
  · refine ⟨⟨trivial,inTime_silent rfl⟩,⟨trivial,inTime_silent rfl⟩,⟨⟨named,?_⟩,inTime_silent rfl⟩,
      ⟨trivial,inTime_silent rfl⟩,trivial⟩
    intro _ _ previous owed waiting key owes
    simp [timelyMachine,Machine.restrict,machine,next,unused,everything,State.setInvalidation] at waiting
    obtain ⟨_,rfl⟩ := waiting
    obtain ⟨within,alive⟩ := owes
    exact covered key within (fun absent => alive (live_none absent))
  · unfold SystemConfig.invalidate
    simp only [everything,World.setMemory]
    rw [← cleared]
    cases keys with
    | nil =>
      have same : eraseAll s.redis [] = s.redis := by
        funext key
        simp [eraseAll]
      rw [same]
      simp [machine,next,unused,everything,State.setInvalidation,afterPage,World.setMemory]
    | cons key rest =>
      simp [machine,next,unused,everything,State.setInvalidation,afterPage,World.setMemory]

theorem serial_invalidate (serial : Serial w s) (service : I) (argument : Option String) :
    ∃ block, Legal (timelyMachine json ttlSeconds) s block ∧
      Serial (operate json (cacheTtlMs ttlSeconds) w (.invalidate service argument))
        (final (machine json ttlSeconds) s block) := by
  obtain ⟨rfl,⟨n,fresh⟩,listed⟩ := serial
  obtain ⟨_,unused⟩ := fresh n (Nat.le_refl n)
  have later_fresh (block : List (Event I V)) (silent : ∀ event ∈ block, event.caller = none)
      (own : ∀ event ∈ block, event.invalidator = some n) : ∀ call, n + 1 ≤ call →
        (final (machine json ttlSeconds) s block).gets call = none ∧
          (final (machine json ttlSeconds) s block).invalidations call = none := by
    intro call later
    obtain ⟨free,idle⟩ := fresh call (Nat.le_of_succ_le later)
    have distinct : some n ≠ some call := by
      intro same
      have equal := Option.some.inj same
      omega
    rw [final_gets _ (fun event listed => by simp [silent event listed]),
      final_invalidations _ (fun event listed => own event listed ▸ distinct)]
    exact ⟨free,idle⟩
  have kept := listed_operate json listed (cacheTtlMs ttlSeconds)
    (.invalidate service argument)
  cases single : singleKey argument with
  | some key =>
    obtain ⟨rfl,nonempty⟩ : argument = some key ∧ key ≠ "" := by
      simpa [singleKey,Option.filter_eq_some_iff] using single
    obtain ⟨world,_⟩ := uninterrupted_invalidate json ttlSeconds s n service key unused nonempty
    refine ⟨[.invalidate n service (some key),.redisDel n true],?_,world,
      ⟨n+1,later_fresh _ (by simp [Event.caller]) (by simp [Event.invalidator])⟩,kept⟩
    exact ⟨⟨trivial,inTime_silent rfl⟩,⟨trivial,inTime_silent rfl⟩,trivial⟩
  | none =>
    obtain ⟨stored,all⟩ := listed
    obtain ⟨legal,world⟩ := clear_block json ttlSeconds s unused service single
      (stored.filter (fun key => redisKeyPrefix.toList.isPrefixOf key.toList))
      (fun key within present => List.mem_filter.mpr ⟨all key present,
        List.isPrefixOf_iff_prefix.mpr ((inNamespace_iff key).mp within)⟩)
      (fun key listed => (inNamespace_iff key).mpr
        (List.isPrefixOf_iff_prefix.mp (List.mem_filter.mp listed).2))
    exact ⟨_,legal,world,
      ⟨n+1,later_fresh _ (by simp [Event.caller]) (by simp [Event.invalidator])⟩,kept⟩

theorem serial_follows (json : JsonCodec V) (version : V → Nat) (ttlSeconds : Option String) :
    Follows (operations (I := I) json version ttlSeconds) (timelyMachine json ttlSeconds) Serial
      (Performs json ttlSeconds) where
  step w s operation serial _ := by
    cases operation with
    | get service key defaultValue replies => exact serial_get serial service key defaultValue replies
    | invalidate service argument =>
      obtain ⟨block,legal,later⟩ := serial_invalidate serial service argument
      exact ⟨block,trivial,legal,later⟩
    | tick ms =>
      obtain ⟨rfl,fresh,listed⟩ := serial
      exact ⟨[.tick ms],trivial,⟨⟨trivial,inTime_silent rfl⟩,trivial⟩,rfl,fresh,listed⟩
    | evict key =>
      obtain ⟨rfl,fresh,listed⟩ := serial
      exact ⟨[.evict key],trivial,⟨⟨trivial,inTime_silent rfl⟩,trivial⟩,rfl,fresh,
        listed_operate json listed 0 (.evict key)⟩
    | updateRow key value =>
      obtain ⟨rfl,fresh,listed⟩ := serial
      exact ⟨[.updateRow key value],trivial,⟨⟨trivial,inTime_silent rfl⟩,trivial⟩,rfl,fresh,listed⟩

end Operations

/-- Every serial run that begins with empty caches is an interleaved run in which no time
passes within a call: at the end of each operation the world is the same, and each `get` has
returned the same. -/
theorem serial_run_interleaves [DecidableEq I] {json : JsonCodec V} {version : V → Nat}
    {ttlSeconds : Option String} (run : Run (operations (I := I) json version ttlSeconds))
    (cold : ∀ key, run.start.redis key = none) :
    ∃ (interleaved : Run (machine (I := I) json ttlSeconds)) (position : Nat → Nat),
      Timely 0 interleaved ∧ Monotone position ∧
        (∀ i, (interleaved.state (position i)).toWorld = run.state i) ∧
          ∀ i service key defaultValue replies, run.Happens i (.get service key defaultValue replies) →
            ∃ call record, (interleaved.state (position (i+1))).gets call = some record ∧
              record.key = key ∧ record.pc = .returned (get json (cacheTtlMs ttlSeconds) (run.state i)
                service key defaultValue replies).1 (run.state i).now := by
  let begun : State I V := {idle with toWorld := run.start}
  have starts : (timelyMachine json ttlSeconds).init begun :=
    ⟨run.init_state.memory,cold,fun _ => rfl,fun _ => rfl,fun _ => rfl⟩
  have serial : Serial run.start begun :=
    ⟨rfl,⟨0,fun _ _ => ⟨rfl,rfl⟩⟩,[],fun key present => absurd (cold key) present⟩
  obtain ⟨timely,blocks,_,followed⟩ := (serial_follows json version ttlSeconds).run run starts serial
  refine ⟨timely.relax,ends blocks,fun i event happens => timely.relax_condition happens,
    ends_monotone blocks,fun i => (followed.related i).world,
    fun i service key defaultValue replies happens => ?_⟩
  obtain ⟨block,found,answers⟩ := followed.answers i _ happens
  have after := followed.state_succ found
  obtain ⟨call,record,read,named,returned⟩ := answers
  exact ⟨call,record,by rw [← read]; exact congrFun (congrArg State.gets after) call,named,returned⟩

theorem fallback_interleaves :
    ∃ (interleaved : Run (machine (I := Bool) unaryJson none)) (position : Nat → Nat),
      (∀ i, (interleaved.state (position i)).toWorld = fallback.state i) ∧
        ∃ call record, (interleaved.state (position 7)).gets call = some record ∧
          record.key = "flag" ∧ record.pc = .returned (.stored 3) 60001 := by
  obtain ⟨interleaved,position,_,_,worlds,answers⟩ := serial_run_interleaves fallback (fun _ => rfl)
  exact ⟨interleaved,position,worlds,answers 6 false "flag" 0 ⟨true,false,true⟩ rfl⟩

end TribeHub.SystemConfig
