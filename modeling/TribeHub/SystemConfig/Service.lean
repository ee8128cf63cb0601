import TribeHub.Library.Expiring
import TribeHub.Library.Js

/-! The feature-flag loader with its two cache levels: the private helpers of
SystemConfigService on the in-memory map and on Redis, and `get` and
`invalidate` as whole operations. The interleaved semantics splits the same
helpers at the await points. -/
namespace TribeHub.SystemConfig
open Expiring

/-- JSON on the stored values; `parse` is `none` where `JSON.parse` throws. -/
structure JsonCodec (V : Type) where
  stringify : V → String
  parse : String → Option V
  parse_stringify : ∀ value, parse (stringify value) = some value

def boolJson : JsonCodec Bool where
  stringify value := if value then "true" else "false"
  parse text := if text = "true" then some true else if text = "false" then some false else none
  parse_stringify value := by cases value <;> simp

def redisKeyPrefix : String := "system_config:"

def redisKey (key : String) : String := redisKeyPrefix ++ key

theorem redisKey_injective : Function.Injective redisKey := by
  intro first second equal
  simpa [redisKey] using equal

/-- The constructor: `SYSTEM_CONFIG_CACHE_TTL_SECONDS ?? '60'`, with 60 for anything that
is not a positive integer. -/
def cacheTtlMs (ttlSeconds : Option String) : Nat :=
  (match Js.parseInt (ttlSeconds.getD "60") with
    | none => 60
    | some seconds => if seconds ≤ 0 then 60 else seconds.toNat) * 1000

/-- `Math.ceil(this.cacheTtlMs / 1000)`, the argument of `EX`. -/
def exSeconds (ttlMs : Nat) : Nat := (ttlMs + 999) / 1000

theorem exSeconds_cacheTtlMs (ttlSeconds : Option String) :
    exSeconds (cacheTtlMs ttlSeconds) * 1000 = cacheTtlMs ttlSeconds := by
  unfold cacheTtlMs exSeconds
  omega

theorem cacheTtlMs_positive (ttlSeconds : Option String) : 0 < cacheTtlMs ttlSeconds := by
  unfold cacheTtlMs
  split
  · omega
  · rename_i seconds _
    by_cases small : seconds ≤ 0
    · simp [small]
    · simp [small]
      omega

variable {I V : Type}

/-- The settled value of `get`: read from the store, or the caller's default. -/
inductive Result (V : Type) where
  | stored (value : V)
  | defaultValue (value : V)
  deriving DecidableEq

structure World (I V : Type) where
  now : Nat
  db : String → Option V
  redis : Store String String
  memory : I → Store String V

def getFromMemory (memory : Store String V) (now : Nat) (key : String) :
    Option V × Store String V :=
  match memory key with
  | none => (none,memory)
  | some entry =>
    if entry.expiresAt < now then (none,erase memory key) else (some entry.value,memory)

theorem erase_absent {store : Store String V} {key : String} (absent : store key = none) :
    erase store key = store := by
  simp [erase,← absent]

theorem getFromMemory_cases (memory : Store String V) (now : Nat) (key : String) :
    (∃ entry, memory key = some entry ∧ now ≤ entry.expiresAt ∧
      getFromMemory memory now key = (some entry.value,memory)) ∨
    ((∀ entry, memory key = some entry → entry.expiresAt < now) ∧
      getFromMemory memory now key = (none,erase memory key)) := by
  unfold getFromMemory
  cases found : memory key with
  | none => exact Or.inr ⟨by simp,by rw [erase_absent found]⟩
  | some entry =>
    by_cases expired : entry.expiresAt < now
    · exact Or.inr ⟨by simpa using expired,by simp [expired]⟩
    · exact Or.inl ⟨entry,rfl,by omega,by simp [expired]⟩

def setInMemory (ttlMs : Nat) (memory : Store String V) (now : Nat) (key : String) (value : V) :
    Store String V := put memory key ⟨value,now + ttlMs⟩

/-- What `getFromRedis` makes of the reply; a failed command and a text that does
not parse both read as a miss. Without a client the command fails. -/
def getFromRedis (json : JsonCodec V) : Except Unit (Option String) → Option V
  | .error _ => none
  | .ok none => none
  | .ok (some raw) => json.parse raw

theorem getFromRedis_some {json : JsonCodec V} {reply : Except Unit (Option String)} {value : V}
    (hit : getFromRedis json reply = some value) :
    ∃ raw, reply = .ok (some raw) ∧ json.parse raw = some value := by
  match reply with
  | .error _ => simp [getFromRedis] at hit
  | .ok none => simp [getFromRedis] at hit
  | .ok (some raw) => exact ⟨raw,rfl,hit⟩

def setInRedis (json : JsonCodec V) (ttlMs : Nat) (redis : Store String String) (now : Nat)
    (key : String) (value : V) : Store String String :=
  put redis (redisKey key) ⟨json.stringify value,now + exSeconds ttlMs * 1000⟩

def deleteFromRedis (redis : Store String String) (key : String) : Store String String :=
  erase redis (redisKey key)

/-- The truthiness test of `invalidate`: the empty key counts as no key. -/
def singleKey (key : Option String) : Option String := key.filter (fun text => text ≠ "")

def invalidateMemory (memory : Store String V) (key : Option String) : Store String V :=
  match singleKey key with
  | some key => erase memory key
  | none => empty

theorem invalidateMemory_some {memory : Store String V} {key : Option String} {other : String}
    {entry : Entry V} (read : invalidateMemory memory key other = some entry) :
    memory other = some entry := by
  unfold invalidateMemory at read
  cases single : singleKey key with
  | none => simp [single] at read
  | some key =>
    rw [single] at read
    exact (erase_some read).2

/-- The argument names the key, or is one that clears everything. -/
def Covers (argument : Option String) (key : String) : Prop :=
  singleKey argument = none ∨ singleKey argument = some key

theorem invalidateMemory_covers (memory : Store String V) {argument : Option String} {key : String}
    (covers : Covers argument key) : invalidateMemory memory argument key = none := by
  unfold invalidateMemory
  rcases covers with all | one
  · simp [all]
  · simp [one]

theorem invalidateMemory_other (memory : Store String V) {argument : Option String} {key : String}
    (spared : ¬Covers argument key) : invalidateMemory memory argument key = memory key := by
  unfold invalidateMemory
  cases single : singleKey argument with
  | none => exact absurd (Or.inl single) spared
  | some other =>
    have distinct : key ≠ other := by
      intro equal
      subst equal
      exact spared (Or.inr single)
    exact erase_other memory distinct

namespace World

variable [DecidableEq I]

def setMemory (w : World I V) (service : I) (memory : Store String V) : World I V :=
  {w with memory := Function.update w.memory service memory}

@[simp] theorem setMemory_now (w : World I V) (service : I) (memory : Store String V) :
    (w.setMemory service memory).now = w.now := rfl

def redisReply (w : World I V) (key : String) (ok : Bool) : Except Unit (Option String) :=
  if ok then .ok (live w.redis w.now (redisKey key)) else .error ()

def findByKey (w : World I V) (key : String) (ok : Bool) : Except Unit (Option V) :=
  if ok then .ok (w.db key) else .error ()

def storeInMemory (w : World I V) (ttlMs : Nat) (service : I) (key : String) (value : V) :
    World I V :=
  w.setMemory service (setInMemory ttlMs (w.memory service) w.now key value)

def storeInRedis (w : World I V) (json : JsonCodec V) (ttlMs : Nat) (key : String) (value : V) :
    World I V := {w with redis := setInRedis json ttlMs w.redis w.now key value}

end World

section Memory

variable [DecidableEq I] {w : World I V}

theorem setMemory_other {service owner : I} {key : String} {memory : Store String V}
    (kept : service = owner → memory key = w.memory service key) :
    (w.setMemory owner memory).memory service key = w.memory service key := by
  by_cases same : service = owner
  · subst owner
    simpa [World.setMemory] using kept rfl
  · simp [World.setMemory,same]

theorem storeInMemory_same (w : World I V) (ttlMs : Nat) (service : I) (key : String) (value : V) :
    (w.storeInMemory ttlMs service key value).memory service key = some ⟨value,w.now + ttlMs⟩ := by
  simp [World.storeInMemory,World.setMemory,setInMemory]

theorem storeInMemory_some {ttlMs : Nat} {service owner : I} {key other : String} {value : V}
    {entry : Entry V}
    (found : (w.storeInMemory ttlMs owner key value).memory service other = some entry) :
    (service = owner ∧ other = key ∧ entry = ⟨value,w.now + ttlMs⟩) ∨
      w.memory service other = some entry := by
  by_cases same : service = owner
  · subst owner
    have read : setInMemory ttlMs (w.memory service) w.now key value other = some entry := by
      simpa [World.storeInMemory,World.setMemory] using found
    rcases put_cases read with ⟨rfl,rfl⟩ | ⟨_,before⟩
    · exact Or.inl ⟨rfl,rfl,rfl⟩
    · exact Or.inr before
  · exact Or.inr (by simpa [World.storeInMemory,World.setMemory,same] using found)

theorem erased_some {service owner : I} {key other : String} {entry : Entry V}
    (found : (w.setMemory owner (erase (w.memory owner) key)).memory service other = some entry) :
    w.memory service other = some entry := by
  by_cases same : service = owner
  · subst owner
    have read : erase (w.memory service) key other = some entry := by
      simpa [World.setMemory] using found
    exact (erase_some read).2
  · simpa [World.setMemory,same] using found

end Memory

end TribeHub.SystemConfig
