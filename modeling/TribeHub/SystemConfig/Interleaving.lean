import TribeHub.Library.Transition
import TribeHub.SystemConfig.Service

/-! SystemConfigService as a machine of interleaved calls. A `get` stops at each
await: the reply of the Redis GET, of the database read and of the Redis SET,
and the memory store before it returns. An `invalidate` stops at each DEL and
SCAN. Between two awaits a call runs without interruption. -/
namespace TribeHub.SystemConfig
open Expiring

variable {I V : Type}

inductive GetPc (V : Type) where
  | getFromRedis
  | findByKey
  | setInRedis (value : V)
  | setInMemory (value : V)
  | returned (result : Result V) (time : Nat)

/-- `reads` are the instants of the Redis GET and the database read performed so far. -/
structure GetCall (I V : Type) where
  service : I
  key : String
  defaultValue : V
  reads : List Nat
  pc : GetPc V

def InNamespace (key : String) : Prop := ∃ configKey, key = redisKey configKey

/-- Where an `invalidate` is suspended. `owed` are the keys that a SCAN iteration
still has to return: those present ever since it began. -/
inductive InvalidatePc where
  | deleteFromRedis (key : String)
  | scan (cursor : String) (owed : String → Prop)
  | del (keys : List String) (cursor : String) (owed : String → Prop)
  | resolved

/-- `late` holds the values of SET commands whose failure was reported while the
command may still reach Redis. -/
structure State (I V : Type) extends World I V where
  gets : Nat → Option (GetCall I V)
  late : Nat → Option V
  invalidations : Nat → Option InvalidatePc

inductive Event (I V : Type) where
  | tick (ms : Nat)
  | updateRow (key : String) (value : V)
  | deleteRow (key : String)
  | evict (key : String)
  | get (call : Nat) (service : I) (key : String) (defaultValue : V)
  | redisGet (call : Nat) (ok : Bool)
  | findByKey (call : Nat) (ok : Bool)
  | redisSet (call : Nat) (ok : Bool)
  | lateSet (call : Nat)
  | setInMemory (call : Nat)
  | invalidate (call : Nat) (service : I) (key : Option String)
  | redisDel (call : Nat) (ok : Bool)
  | scan (call : Nat) (ok : Bool) (cursor : String) (keys : List String)
  | missing (call : Nat)

namespace State

def setGet (s : State I V) (call : Nat) (record : GetCall I V) : State I V :=
  {s with gets := Function.update s.gets call (some record)}

def setInvalidation (s : State I V) (call : Nat) (pc : InvalidatePc) : State I V :=
  {s with invalidations := Function.update s.invalidations call (some pc)}

theorem setGet_cases {s : State I V} {call other : Nat} {record found : GetCall I V}
    (read : (s.setGet call record).gets other = some found) :
    (other = call ∧ found = record) ∨ (other ≠ call ∧ s.gets other = some found) := by
  by_cases same : other = call
  · subst other
    exact Or.inl ⟨rfl,by simpa [setGet] using read.symm⟩
  · exact Or.inr ⟨same,by simpa [setGet,same] using read⟩

end State

def beginGet [DecidableEq I] (s : State I V) (call : Nat) (service : I) (key : String)
    (defaultValue : V) : State I V :=
  match getFromMemory (s.memory service) s.now key with
  | (hit,memory) =>
    {s.setGet call ⟨service,key,defaultValue,[],
        match hit with
        | some value => .returned (.stored value) s.now
        | none => .getFromRedis⟩ with
      toWorld := s.toWorld.setMemory service memory}

def afterPage (cursor : String) (owed : String → Prop) : InvalidatePc :=
  if cursor = "0" then .resolved else .scan cursor owed

def next [DecidableEq I] (json : JsonCodec V) (ttlMs : Nat) (s : State I V) :
    Event I V → State I V
  | .tick ms => {s with now := s.now + ms}
  | .updateRow key value => {s with db := Function.update s.db key (some value)}
  | .deleteRow key => {s with db := Function.update s.db key none}
  | .evict key => {s with redis := erase s.redis key}
  | .get call service key defaultValue =>
    match s.gets call with
    | none => beginGet s call service key defaultValue
    | some _ => s
  | .redisGet call ok =>
    match s.gets call with
    | some ⟨service,key,defaultValue,reads,.getFromRedis⟩ =>
      s.setGet call ⟨service,key,defaultValue,s.now :: reads,
        match getFromRedis json (s.toWorld.redisReply key ok) with
        | some value => .setInMemory value
        | none => .findByKey⟩
    | _ => s
  | .findByKey call ok =>
    match s.gets call with
    | some ⟨service,key,defaultValue,reads,.findByKey⟩ =>
      s.setGet call ⟨service,key,defaultValue,s.now :: reads,
        match s.toWorld.findByKey key ok with
        | .ok (some value) => .setInRedis value
        | _ => .returned (.defaultValue defaultValue) s.now⟩
    | _ => s
  | .redisSet call ok =>
    match s.gets call with
    | some ⟨service,key,defaultValue,reads,.setInRedis value⟩ =>
      -- `setInRedis` swallows the failure, so both outcomes go on to the memory store.
      if ok then
        {s.setGet call ⟨service,key,defaultValue,reads,.setInMemory value⟩ with
          toWorld := s.toWorld.storeInRedis json ttlMs key value}
      else
        {s.setGet call ⟨service,key,defaultValue,reads,.setInMemory value⟩ with
          late := Function.update s.late call (some value)}
    | _ => s
  | .lateSet call =>
    match s.gets call,s.late call with
    | some record,some value =>
      {s with
        toWorld := s.toWorld.storeInRedis json ttlMs record.key value
        late := Function.update s.late call none}
    | _,_ => s
  | .setInMemory call =>
    match s.gets call with
    | some ⟨service,key,defaultValue,reads,.setInMemory value⟩ =>
      {s.setGet call ⟨service,key,defaultValue,reads,.returned (.stored value) s.now⟩ with
        toWorld := s.toWorld.storeInMemory ttlMs service key value}
    | _ => s
  | .invalidate call service key =>
    match s.invalidations call with
    | none =>
      {s.setInvalidation call (match singleKey key with
          | some key => .deleteFromRedis key
          | none => .scan "0" InNamespace) with
        toWorld := s.toWorld.setMemory service (invalidateMemory (s.memory service) key)}
    | some _ => s
  | .redisDel call ok =>
    match s.invalidations call with
    | some (.deleteFromRedis key) =>
      {s.setInvalidation call .resolved with
        redis := if ok then deleteFromRedis s.redis key else s.redis}
    | some (.del keys cursor owed) =>
      if ok then
        {s.setInvalidation call (afterPage cursor owed) with redis := eraseAll s.redis keys}
      else s.setInvalidation call .resolved
    | _ => s
  | .scan call ok cursor keys =>
    match s.invalidations call with
    | some (.scan _ owed) =>
      if ok then
        s.setInvalidation call
          (if keys.isEmpty then afterPage cursor owed
            else .del keys cursor (fun key => owed key ∧ key ∉ keys))
      else s.setInvalidation call .resolved
    | _ => s
  | .missing call =>
    match s.invalidations call with
    | some (.scan cursor owed) =>
      s.setInvalidation call (.scan cursor (fun key => owed key ∧ live s.redis s.now key ≠ none))
    | some (.del keys cursor owed) =>
      s.setInvalidation call
        (.del keys cursor (fun key => owed key ∧ live s.redis s.now key ≠ none))
    | _ => s

/-- SCAN returns keys that match the pattern, and ends an iteration only when it
owes none. `missing` lets it skip a key that was absent at some moment. -/
def Enabled (s : State I V) : Event I V → Prop
  | .scan call ok cursor keys =>
    (∀ key ∈ keys, InNamespace key) ∧
      (ok = true → cursor = "0" → ∀ previous owed,
        s.invalidations call = some (.scan previous owed) → ∀ key, owed key → key ∈ keys)
  | _ => True

def idle : State I V where
  now := 0
  db _ := none
  redis _ := none
  memory _ _ := none
  gets _ := none
  late _ := none
  invalidations _ := none

def Initial (s : State I V) : Prop :=
  (∀ service key, s.memory service key = none) ∧ (∀ key, s.redis key = none) ∧
    (∀ call, s.gets call = none) ∧ (∀ call, s.late call = none) ∧
      ∀ call, s.invalidations call = none

theorem idle_initial : Initial (idle : State I V) :=
  ⟨fun _ _ => rfl,fun _ => rfl,fun _ => rfl,fun _ => rfl,fun _ => rfl⟩

variable [DecidableEq I]

/-- What one event can do: each constructor is one path through `next`, with the
tests that led to it. Every invariant of the machine is proved on these cases. -/
inductive Move (json : JsonCodec V) (ttlMs : Nat) (s : State I V) : Event I V → State I V → Prop
  | idle (event) : Move json ttlMs s event s
  | tick (ms) : Move json ttlMs s (.tick ms) {s with now := s.now + ms}
  | updateRow (key value) :
      Move json ttlMs s (.updateRow key value) {s with db := Function.update s.db key (some value)}
  | deleteRow (key) :
      Move json ttlMs s (.deleteRow key) {s with db := Function.update s.db key none}
  | evict (key) : Move json ttlMs s (.evict key) {s with redis := erase s.redis key}
  | memoryHit (call service key defaultValue entry) (unused : s.gets call = none)
      (found : s.memory service key = some entry) (alive : s.now ≤ entry.expiresAt) :
      Move json ttlMs s (.get call service key defaultValue)
        (s.setGet call ⟨service,key,defaultValue,[],.returned (.stored entry.value) s.now⟩)
  | memoryMiss (call service key defaultValue) (unused : s.gets call = none)
      (expired : ∀ entry, s.memory service key = some entry → entry.expiresAt < s.now) :
      Move json ttlMs s (.get call service key defaultValue)
        {s.setGet call ⟨service,key,defaultValue,[],.getFromRedis⟩ with
          toWorld := s.toWorld.setMemory service (erase (s.memory service) key)}
  | redisHit (call service key defaultValue reads raw value)
      (waiting : s.gets call = some ⟨service,key,defaultValue,reads,.getFromRedis⟩)
      (found : live s.redis s.now (redisKey key) = some raw) (parsed : json.parse raw = some value) :
      Move json ttlMs s (.redisGet call true)
        (s.setGet call ⟨service,key,defaultValue,s.now :: reads,.setInMemory value⟩)
  | redisMiss (call ok service key defaultValue reads)
      (waiting : s.gets call = some ⟨service,key,defaultValue,reads,.getFromRedis⟩) :
      Move json ttlMs s (.redisGet call ok)
        (s.setGet call ⟨service,key,defaultValue,s.now :: reads,.findByKey⟩)
  | rowFound (call service key defaultValue reads value)
      (waiting : s.gets call = some ⟨service,key,defaultValue,reads,.findByKey⟩)
      (row : s.db key = some value) :
      Move json ttlMs s (.findByKey call true)
        (s.setGet call ⟨service,key,defaultValue,s.now :: reads,.setInRedis value⟩)
  | rowMissing (call ok service key defaultValue reads)
      (waiting : s.gets call = some ⟨service,key,defaultValue,reads,.findByKey⟩)
      (missing : ok = false ∨ s.db key = none) :
      Move json ttlMs s (.findByKey call ok)
        (s.setGet call ⟨service,key,defaultValue,s.now :: reads,
          .returned (.defaultValue defaultValue) s.now⟩)
  | redisSetOk (call service key defaultValue reads value)
      (waiting : s.gets call = some ⟨service,key,defaultValue,reads,.setInRedis value⟩) :
      Move json ttlMs s (.redisSet call true)
        {s.setGet call ⟨service,key,defaultValue,reads,.setInMemory value⟩ with
          toWorld := s.toWorld.storeInRedis json ttlMs key value}
  | redisSetFailed (call service key defaultValue reads value)
      (waiting : s.gets call = some ⟨service,key,defaultValue,reads,.setInRedis value⟩) :
      Move json ttlMs s (.redisSet call false)
        {s.setGet call ⟨service,key,defaultValue,reads,.setInMemory value⟩ with
          late := Function.update s.late call (some value)}
  | lateSet (call record value) (owner : s.gets call = some record)
      (pending : s.late call = some value) :
      Move json ttlMs s (.lateSet call)
        {s with
          toWorld := s.toWorld.storeInRedis json ttlMs record.key value
          late := Function.update s.late call none}
  | store (call service key defaultValue reads value)
      (waiting : s.gets call = some ⟨service,key,defaultValue,reads,.setInMemory value⟩) :
      Move json ttlMs s (.setInMemory call)
        {s.setGet call ⟨service,key,defaultValue,reads,.returned (.stored value) s.now⟩ with
          toWorld := s.toWorld.storeInMemory ttlMs service key value}
  | invalidate (call service key) (unused : s.invalidations call = none) :
      Move json ttlMs s (.invalidate call service key)
        {s.setInvalidation call (match singleKey key with
            | some key => .deleteFromRedis key
            | none => .scan "0" InNamespace) with
          toWorld := s.toWorld.setMemory service (invalidateMemory (s.memory service) key)}
  | delKey (call key) (waiting : s.invalidations call = some (.deleteFromRedis key)) :
      Move json ttlMs s (.redisDel call true)
        {s.setInvalidation call .resolved with redis := deleteFromRedis s.redis key}
  | delPage (call keys cursor owed)
      (waiting : s.invalidations call = some (.del keys cursor owed)) :
      Move json ttlMs s (.redisDel call true)
        {s.setInvalidation call (afterPage cursor owed) with redis := eraseAll s.redis keys}
  | delFailed (call) : Move json ttlMs s (.redisDel call false) (s.setInvalidation call .resolved)
  | emptyPage (call previous cursor owed)
      (waiting : s.invalidations call = some (.scan previous owed)) :
      Move json ttlMs s (.scan call true cursor [])
        (s.setInvalidation call (afterPage cursor owed))
  | page (call previous cursor keys owed)
      (waiting : s.invalidations call = some (.scan previous owed)) :
      Move json ttlMs s (.scan call true cursor keys)
        (s.setInvalidation call (.del keys cursor (fun key => owed key ∧ key ∉ keys)))
  | scanFailed (call cursor keys) :
      Move json ttlMs s (.scan call false cursor keys) (s.setInvalidation call .resolved)
  | missingScan (call cursor owed) (waiting : s.invalidations call = some (.scan cursor owed)) :
      Move json ttlMs s (.missing call) (s.setInvalidation call
        (.scan cursor (fun key => owed key ∧ live s.redis s.now key ≠ none)))
  | missingDel (call keys cursor owed)
      (waiting : s.invalidations call = some (.del keys cursor owed)) :
      Move json ttlMs s (.missing call) (s.setInvalidation call
        (.del keys cursor (fun key => owed key ∧ live s.redis s.now key ≠ none)))

theorem next_move (json : JsonCodec V) (ttlMs : Nat) (s : State I V) (event : Event I V) :
    Move json ttlMs s event (next json ttlMs s event) := by
  cases event with
  | tick ms => exact .tick ms
  | updateRow key value => exact .updateRow key value
  | deleteRow key => exact .deleteRow key
  | evict key => exact .evict key
  | get call service key defaultValue =>
    simp only [next]
    split
    · rename_i unused
      unfold beginGet
      rcases getFromMemory_cases (s.memory service) s.now key with
        ⟨entry,found,alive,equal⟩ | ⟨expired,equal⟩
      · rw [equal]
        have same : s.toWorld.setMemory service (s.memory service) = s.toWorld := by
          simp [World.setMemory]
        simp only [same]
        exact .memoryHit call service key defaultValue entry unused found alive
      · rw [equal]
        exact .memoryMiss call service key defaultValue unused expired
    · exact .idle _
  | redisGet call ok =>
    simp only [next]
    split
    · rename_i service key defaultValue reads waiting
      cases hit : getFromRedis json (s.toWorld.redisReply key ok) with
      | none => exact .redisMiss call ok service key defaultValue reads waiting
      | some value =>
        obtain ⟨raw,reply,parsed⟩ := getFromRedis_some hit
        cases ok with
        | false => simp [World.redisReply] at reply
        | true =>
          have found : live s.redis s.now (redisKey key) = some raw := by
            simpa [World.redisReply] using reply
          exact .redisHit call service key defaultValue reads raw value waiting found parsed
    · exact .idle _
  | findByKey call ok =>
    simp only [next]
    split
    · rename_i service key defaultValue reads waiting
      cases ok with
      | false =>
        exact .rowMissing call false service key defaultValue reads waiting (Or.inl rfl)
      | true =>
        cases row : s.db key with
        | none =>
          have missing : Move json ttlMs s (.findByKey call true) _ :=
            .rowMissing call true service key defaultValue reads waiting (Or.inr row)
          simpa [World.findByKey,row] using missing
        | some value =>
          have found : Move json ttlMs s (.findByKey call true) _ :=
            .rowFound call service key defaultValue reads value waiting row
          simpa [World.findByKey,row] using found
    · exact .idle _
  | redisSet call ok =>
    simp only [next]
    split
    · rename_i service key defaultValue reads value waiting
      cases ok with
      | false => exact .redisSetFailed call service key defaultValue reads value waiting
      | true => exact .redisSetOk call service key defaultValue reads value waiting
    · exact .idle _
  | lateSet call =>
    simp only [next]
    split
    · rename_i record value owner pending
      exact .lateSet call record value owner pending
    · exact .idle _
  | setInMemory call =>
    simp only [next]
    split
    · rename_i service key defaultValue reads value waiting
      exact .store call service key defaultValue reads value waiting
    · exact .idle _
  | invalidate call service key =>
    simp only [next]
    split
    · rename_i unused
      exact .invalidate call service key unused
    · exact .idle _
  | redisDel call ok =>
    simp only [next]
    split
    · rename_i key waiting
      cases ok with
      | false => exact .delFailed call
      | true => exact .delKey call key waiting
    · rename_i keys cursor owed waiting
      cases ok with
      | false => exact .delFailed call
      | true => exact .delPage call keys cursor owed waiting
    · exact .idle _
  | scan call ok cursor keys =>
    simp only [next]
    split
    · rename_i previous owed waiting
      cases ok with
      | false => exact .scanFailed call cursor keys
      | true =>
        cases keys with
        | nil => exact .emptyPage call previous cursor owed waiting
        | cons key rest => exact .page call previous cursor (key :: rest) owed waiting
    · exact .idle _
  | missing call =>
    simp only [next]
    split
    · rename_i cursor owed waiting
      exact .missingScan call cursor owed waiting
    · rename_i keys cursor owed waiting
      exact .missingDel call keys cursor owed waiting
    · exact .idle _

theorem Move.now_le {json : JsonCodec V} {ttlMs : Nat} {s t : State I V} {event : Event I V}
    (move : Move json ttlMs s event t) : s.now ≤ t.now := by
  cases move with
  | tick ms => exact Nat.le_add_right _ _
  | _ => exact Nat.le_refl _

/-- The call holds a value it read and has not yet stored in memory. -/
def GetCall.Carries (call : GetCall I V) (value : V) : Prop :=
  call.pc = .setInRedis value ∨ call.pc = .setInMemory value

section Provenance

variable {json : JsonCodec V} {ttlMs : Nat} {s t : State I V} {event : Event I V}

theorem Move.memory_some (move : Move json ttlMs s event t) {service : I} {key : String}
    {entry : Entry V} (found : t.memory service key = some entry) :
    s.memory service key = some entry ∨ ∃ call record, s.gets call = some record ∧
      record.key = key ∧ record.pc = .setInMemory entry.value := by
  cases move with
  | memoryMiss call owner other defaultValue unused expired => exact Or.inl (erased_some found)
  | store call owner other defaultValue reads value waiting =>
    rcases storeInMemory_some found with ⟨rfl,rfl,rfl⟩ | before
    · exact Or.inr ⟨call,_,waiting,rfl,rfl⟩
    · exact Or.inl before
  | invalidate call owner argument unused =>
    by_cases same : service = owner
    · subst owner
      have read : invalidateMemory (s.memory service) argument key = some entry := by
        simpa [World.setMemory] using found
      exact Or.inl (invalidateMemory_some read)
    · exact Or.inl (by simpa [World.setMemory,same] using found)
  | _ => exact Or.inl found

theorem Move.redis_some (move : Move json ttlMs s event t) {key : String} {entry : Entry String}
    (found : t.redis (redisKey key) = some entry) :
    s.redis (redisKey key) = some entry ∨ ∃ call record value, s.gets call = some record ∧
      record.key = key ∧ entry.value = json.stringify value ∧
        (record.pc = .setInRedis value ∨ s.late call = some value) := by
  cases move with
  | evict other => exact Or.inl (erase_some found).2
  | redisSetOk call service other defaultValue reads value waiting =>
    rcases put_cases found with ⟨same,rfl⟩ | ⟨_,before⟩
    · exact Or.inr ⟨call,_,value,waiting,(redisKey_injective same).symm,rfl,Or.inl rfl⟩
    · exact Or.inl before
  | lateSet call record value owner pending =>
    rcases put_cases found with ⟨same,rfl⟩ | ⟨_,before⟩
    · exact Or.inr ⟨call,record,value,owner,(redisKey_injective same).symm,rfl,Or.inr pending⟩
    · exact Or.inl before
  | delKey call other waiting => exact Or.inl (erase_some found).2
  | delPage call keys cursor owed waiting => exact Or.inl (eraseAll_some found).2
  | _ => exact Or.inl found

theorem Move.carries (move : Move json ttlMs s event t) {call : Nat} {record : GetCall I V}
    {value : V} (found : t.gets call = some record) (carries : record.Carries value) :
    (∃ old, s.gets call = some old ∧ old.key = record.key ∧ old.Carries value) ∨
      (∃ raw, live s.redis s.now (redisKey record.key) = some raw ∧ json.parse raw = some value) ∨
        s.db record.key = some value := by
  cases move with
  | redisHit other service key defaultValue reads raw read waiting hit parsed =>
    rcases State.setGet_cases found with ⟨rfl,rfl⟩ | ⟨_,before⟩
    · have equal : read = value := by simpa [GetCall.Carries] using carries
      exact Or.inr (Or.inl ⟨raw,hit,equal ▸ parsed⟩)
    · exact Or.inl ⟨record,before,rfl,carries⟩
  | rowFound other service key defaultValue reads read waiting row =>
    rcases State.setGet_cases found with ⟨rfl,rfl⟩ | ⟨_,before⟩
    · have equal : read = value := by simpa [GetCall.Carries] using carries
      exact Or.inr (Or.inr (equal ▸ row))
    · exact Or.inl ⟨record,before,rfl,carries⟩
  | redisSetOk other service key defaultValue reads read waiting
  | redisSetFailed other service key defaultValue reads read waiting =>
    rcases State.setGet_cases found with ⟨rfl,rfl⟩ | ⟨_,before⟩
    · have equal : read = value := by simpa [GetCall.Carries] using carries
      exact Or.inl ⟨_,waiting,rfl,Or.inl (equal ▸ rfl)⟩
    · exact Or.inl ⟨record,before,rfl,carries⟩
  | memoryHit | memoryMiss | redisMiss | rowMissing | store =>
    rcases State.setGet_cases found with ⟨rfl,rfl⟩ | ⟨_,before⟩
    · simp [GetCall.Carries] at carries
    · exact Or.inl ⟨record,before,rfl,carries⟩
  | _ => exact Or.inl ⟨record,found,rfl,carries⟩

theorem Move.returns (move : Move json ttlMs s event t) {call : Nat} {old : GetCall I V}
    (before : s.gets call = some old) :
    ∃ record, t.gets call = some record ∧ record.key = old.key ∧
      ∀ result time, record.pc = .returned result time →
        old.pc = .returned result time ∨ (∃ value, result = .stored value ∧ old.Carries value) ∨
          ∃ ok, event = .findByKey call ok ∧ (ok = false ∨ s.db old.key = none) := by
  cases move with
  | memoryHit other _ _ _ _ unused | memoryMiss other _ _ _ unused =>
    have distinct : call ≠ other := by
      intro equal
      subst equal
      rw [unused] at before
      contradiction
    refine ⟨old,?_,rfl,fun _ _ same => Or.inl same⟩
    simpa [State.setGet,Function.update_of_ne distinct] using before
  | redisHit other _ _ _ _ _ _ waiting | redisMiss other _ _ _ _ _ waiting
  | rowFound other _ _ _ _ _ waiting | redisSetOk other _ _ _ _ _ waiting
  | redisSetFailed other _ _ _ _ _ waiting =>
    by_cases same : call = other
    · subst other
      obtain rfl := Option.some.inj (before.symm.trans waiting)
      exact ⟨_,Function.update_self ..,rfl,fun _ _ same => by simp at same⟩
    · refine ⟨old,?_,rfl,fun _ _ same => Or.inl same⟩
      simpa [State.setGet,Function.update_of_ne same] using before
  | rowMissing other ok _ _ _ _ waiting missing =>
    by_cases same : call = other
    · subst other
      obtain rfl := Option.some.inj (before.symm.trans waiting)
      exact ⟨_,Function.update_self ..,rfl,fun _ _ _ => Or.inr (Or.inr ⟨ok,rfl,missing⟩)⟩
    · refine ⟨old,?_,rfl,fun _ _ same => Or.inl same⟩
      simpa [State.setGet,Function.update_of_ne same] using before
  | store other _ _ _ _ value waiting =>
    by_cases same : call = other
    · subst other
      obtain rfl := Option.some.inj (before.symm.trans waiting)
      refine ⟨_,Function.update_self ..,rfl,fun result time same => ?_⟩
      simp only [GetPc.returned.injEq] at same
      exact Or.inr (Or.inl ⟨value,same.1.symm,Or.inr rfl⟩)
    · refine ⟨old,?_,rfl,fun _ _ same => Or.inl same⟩
      simpa [State.setGet,Function.update_of_ne same] using before
  | _ => exact ⟨old,before,rfl,fun _ _ same => Or.inl same⟩

theorem get_begins (json : JsonCodec V) (ttlMs : Nat) (s : State I V) (call : Nat) (service : I)
    (key : String) (defaultValue : V) (unused : s.gets call = none) :
    ∃ pc, (next json ttlMs s (.get call service key defaultValue)).gets call =
        some ⟨service,key,defaultValue,[],pc⟩ ∧
      (pc = .getFromRedis ∨ ∃ entry, s.memory service key = some entry ∧
        pc = .returned (.stored entry.value) s.now) := by
  simp only [next,unused,beginGet]
  rcases getFromMemory_cases (s.memory service) s.now key with ⟨entry,found,_,equal⟩ | ⟨_,equal⟩
  · rw [equal]
    exact ⟨_,Function.update_self ..,Or.inr ⟨entry,found,rfl⟩⟩
  · rw [equal]
    exact ⟨_,Function.update_self ..,Or.inl rfl⟩

theorem Move.row_kept (move : Move json ttlMs s event t) {key : String} {value : V}
    (row : s.db key = some value) (kept : event ≠ .deleteRow key) :
    ∃ value, t.db key = some value := by
  cases move with
  | updateRow other new =>
    by_cases same : key = other
    · subst other
      exact ⟨new,Function.update_self ..⟩
    · exact ⟨value,by simpa [Function.update_of_ne same] using row⟩
  | deleteRow other =>
    have distinct : key ≠ other := fun same => kept (by rw [same])
    exact ⟨value,by simpa [Function.update_of_ne distinct] using row⟩
  | _ => exact ⟨value,row⟩

end Provenance

def machine (json : JsonCodec V) (ttlSeconds : Option String) :
    Transition.Machine (State I V) (Event I V) where
  init := Initial
  enabled := Enabled
  next := next json (cacheTtlMs ttlSeconds)

theorem run_move {json : JsonCodec V} {ttlSeconds : Option String}
    (run : Transition.Run (machine (I := I) json ttlSeconds)) {i : Nat} {event : Event I V}
    (happens : run.Happens i event) :
    Move json (cacheTtlMs ttlSeconds) (run.state i) event (run.state (i+1)) := by
  rw [run.state_succ happens]
  exact next_move json (cacheTtlMs ttlSeconds) (run.state i) event

theorem clock_monotone {json : JsonCodec V} {ttlSeconds : Option String}
    (run : Transition.Run (machine (I := I) json ttlSeconds)) :
    Monotone (fun i => (run.state i).now) :=
  run.monotone (fun s => s.now) (fun s event => (next_move json _ s event).now_le)

end TribeHub.SystemConfig
