import TribeHub.SystemConfig.Interleaving

/-! `get` and `invalidate` run from start to end at one instant, and the agreement
of a whole `get` with the interleaved machine when no other event comes between. -/
namespace TribeHub.SystemConfig
open Expiring Transition

variable {I V : Type} [DecidableEq I]

/-- Which awaited commands of one `get` succeed. A SET may take effect or not,
whatever its reply. -/
structure Replies where
  redisGet : Bool
  findByKey : Bool
  redisSet : Bool

/-- SystemConfigService.get. -/
def get (json : JsonCodec V) (ttlMs : Nat) (w : World I V) (service : I) (key : String)
    (defaultValue : V) (replies : Replies) : Result V × World I V :=
  let (hit,memory) := getFromMemory (w.memory service) w.now key
  let w := w.setMemory service memory
  match hit with
  | some value => (.stored value,w)
  | none =>
    match getFromRedis json (w.redisReply key replies.redisGet) with
    | some value => (.stored value,w.storeInMemory ttlMs service key value)
    | none =>
      match w.findByKey key replies.findByKey with
      | .error _ => (.defaultValue defaultValue,w)
      | .ok none => (.defaultValue defaultValue,w)
      | .ok (some value) =>
        let w := if replies.redisSet then w.storeInRedis json ttlMs key value else w
        (.stored value,w.storeInMemory ttlMs service key value)

def clearRedisNamespace (redis : Store String String) : Store String String :=
  fun key => if redisKeyPrefix.toList.isPrefixOf key.toList then none else redis key

/-- SystemConfigService.invalidate with every Redis deletion successful. -/
def invalidate (w : World I V) (service : I) (argument : Option String) : World I V :=
  let w := w.setMemory service (invalidateMemory (w.memory service) argument)
  match singleKey argument with
  | some key => {w with redis := deleteFromRedis w.redis key}
  | none => {w with redis := clearRedisNamespace w.redis}

inductive GetPath (json : JsonCodec V) (ttlMs : Nat) (w : World I V) (service : I) (key : String)
    (defaultValue : V) : Result V × World I V → Prop
  | memoryHit (entry) (found : w.memory service key = some entry)
      (alive : w.now ≤ entry.expiresAt) :
      GetPath json ttlMs w service key defaultValue (.stored entry.value,w)
  | redisHit (raw value) (expired : ∀ entry, w.memory service key = some entry → entry.expiresAt < w.now)
      (found : live w.redis w.now (redisKey key) = some raw) (parsed : json.parse raw = some value) :
      GetPath json ttlMs w service key defaultValue
        (.stored value,w.storeInMemory ttlMs service key value)
  | noRow (expired : ∀ entry, w.memory service key = some entry → entry.expiresAt < w.now) :
      GetPath json ttlMs w service key defaultValue
        (.defaultValue defaultValue,w.setMemory service (erase (w.memory service) key))
  | row (value) (written : Bool)
      (expired : ∀ entry, w.memory service key = some entry → entry.expiresAt < w.now)
      (found : w.db key = some value) :
      GetPath json ttlMs w service key defaultValue
        (.stored value,
          (if written then w.storeInRedis json ttlMs key value else w).storeInMemory
            ttlMs service key value)

theorem storeInMemory_erased (w : World I V) (ttlMs : Nat) (service : I) (key : String) (value : V) :
    (w.setMemory service (erase (w.memory service) key)).storeInMemory ttlMs service key value =
      w.storeInMemory ttlMs service key value := by
  simp [World.storeInMemory,World.setMemory,setInMemory,put,erase]

theorem get_path (json : JsonCodec V) (ttlMs : Nat) (w : World I V) (service : I) (key : String)
    (defaultValue : V) (replies : Replies) :
    GetPath json ttlMs w service key defaultValue
      (get json ttlMs w service key defaultValue replies) := by
  unfold get
  rcases getFromMemory_cases (w.memory service) w.now key with
    ⟨entry,found,alive,equal⟩ | ⟨expired,equal⟩
  · rw [equal]
    have same : w.setMemory service (w.memory service) = w := by simp [World.setMemory]
    simp only [same]
    exact .memoryHit entry found alive
  · rw [equal]
    simp only
    cases hit : getFromRedis json ((w.setMemory service (erase (w.memory service) key)).redisReply
        key replies.redisGet) with
    | some value =>
      obtain ⟨raw,reply,parsed⟩ := getFromRedis_some hit
      have found : live w.redis w.now (redisKey key) = some raw := by
        unfold World.redisReply at reply
        split at reply
        · exact Except.ok.inj reply
        · contradiction
      simp only [storeInMemory_erased]
      exact .redisHit raw value expired found parsed
    | none =>
      cases read : (w.setMemory service (erase (w.memory service) key)).findByKey key
          replies.findByKey with
      | error _ => exact .noRow expired
      | ok row =>
        cases row with
        | none => exact .noRow expired
        | some value =>
          have found : w.db key = some value := by
            unfold World.findByKey at read
            split at read
            · exact Except.ok.inj read
            · contradiction
          cases written : replies.redisSet with
          | false =>
            simp only [Bool.false_eq_true,if_false,storeInMemory_erased]
            exact .row value false expired found
          | true =>
            have moved := storeInMemory_erased (w.storeInRedis json ttlMs key value) ttlMs service
              key value
            have path : GetPath json ttlMs w service key defaultValue _ := .row value true expired found
            rw [if_pos rfl,← moved] at path
            exact path

/-- With no other event between its awaits, the interleaved `get` is the whole one. -/
theorem uninterrupted_get (json : JsonCodec V) (ttlSeconds : Option String) (s : State I V)
    (call : Nat) (service : I) (key : String) (defaultValue : V) (replies : Replies)
    (unused : s.gets call = none) :
    let t := final (machine json ttlSeconds) s [.get call service key defaultValue,
      .redisGet call replies.redisGet,.findByKey call replies.findByKey,
      .redisSet call replies.redisSet,.setInMemory call]
    let whole := get json (cacheTtlMs ttlSeconds) s.toWorld service key defaultValue replies
    t.toWorld = whole.2 ∧
      ∃ record, t.gets call = some record ∧ record.pc = .returned whole.1 s.now := by
  simp only [final_cons,final_nil,machine]
  unfold get
  cases lookup : getFromMemory (s.memory service) s.now key with
  | mk hit memory =>
  cases hit with
  | some value =>
    simp [next,unused,beginGet,lookup,State.setGet,World.setMemory]
  | none =>
    cases reply : getFromRedis json ((s.toWorld.setMemory service memory).redisReply key
      replies.redisGet) with
    | some value =>
      simp [next,unused,beginGet,lookup,State.setGet,reply]
    | none =>
      cases read : (s.toWorld.setMemory service memory).findByKey key replies.findByKey with
      | error _ => simp [next,unused,beginGet,lookup,State.setGet,reply,read]
      | ok row =>
        cases row with
        | none => simp [next,unused,beginGet,lookup,State.setGet,reply,read]
        | some value =>
          cases written : replies.redisSet with
          | false =>
            simp [next,unused,beginGet,lookup,State.setGet,reply,read]
          | true =>
            simp [next,unused,beginGet,lookup,State.setGet,reply,read]
            simp [World.setMemory,World.storeInRedis]

theorem uninterrupted_invalidate (json : JsonCodec V) (ttlSeconds : Option String) (s : State I V)
    (call : Nat) (service : I) (key : String) (unused : s.invalidations call = none)
    (nonempty : key ≠ "") :
    let t := final (machine json ttlSeconds) s
      [.invalidate call service (some key),.redisDel call true]
    t.toWorld = invalidate s.toWorld service (some key) ∧ t.invalidations call = some .resolved := by
  simp only [final_cons,final_nil,machine,invalidate]
  have single : singleKey (some key) = some key := by simp [singleKey,nonempty]
  simp [next,unused,single,State.setInvalidation,World.setMemory]

end TribeHub.SystemConfig
