import TribeHub.SystemConfig.Interleaving

/-! What the two cache levels spare. A value that was stored stays readable for its whole
lifetime, whatever other calls do, unless something deletes it. -/
namespace TribeHub.SystemConfig
open Expiring Transition

variable {I V : Type}

def StoresInMemory (s : State I V) (service : I) (key : String) (value : V) : Event I V → Prop
  | .setInMemory call => ∃ defaultValue reads,
    s.gets call = some ⟨service,key,defaultValue,reads,.setInMemory value⟩
  | _ => False

/-- A SET reaches Redis, in time or after its failure was reported. -/
def StoresInRedis (s : State I V) (key : String) (value : V) : Event I V → Prop
  | .redisSet call ok => ok = true ∧ ∃ service defaultValue reads,
    s.gets call = some ⟨service,key,defaultValue,reads,.setInRedis value⟩
  | .lateSet call => ∃ record, s.gets call = some record ∧ record.key = key ∧ s.late call = some value
  | _ => False

def ClearsMemory (service : I) (key : String) : Event I V → Prop
  | .invalidate _ owner argument => owner = service ∧ Covers argument key
  | _ => False

def ClearsRedis (s : State I V) (key : String) : Event I V → Prop
  | .evict name => name = redisKey key
  | .redisDel call _ => s.invalidations call = some (.deleteFromRedis key) ∨
    ∃ keys cursor owed, s.invalidations call = some (.del keys cursor owed) ∧ redisKey key ∈ keys
  | _ => False

variable [DecidableEq I] {json : JsonCodec V} {ttlMs : Nat} {s t : State I V} {event : Event I V}
  {service : I} {key : String}

theorem Move.memory_kept (move : Move json ttlMs s event t) (spared : ¬ClearsMemory service key event)
    {entry : Entry V} (found : s.memory service key = some entry) (alive : s.now ≤ entry.expiresAt) :
    t.memory service key = some entry ∨ ∃ value, StoresInMemory s service key value event ∧
      t.memory service key = some ⟨value,s.now + ttlMs⟩ := by
  cases move with
  | memoryMiss call owner other defaultValue unused expired =>
    have kept : (s.toWorld.setMemory owner (erase (s.memory owner) other)).memory service key =
        s.memory service key := by
      refine setMemory_other fun same => ?_
      subst same
      refine erase_other _ fun equal => ?_
      subst equal
      exact absurd (expired entry found) (Nat.not_lt.mpr alive)
    exact Or.inl (kept.trans found)
  | store call owner other defaultValue reads value waiting =>
    by_cases own : service = owner ∧ key = other
    · obtain ⟨rfl,rfl⟩ := own
      exact Or.inr ⟨value,⟨defaultValue,reads,waiting⟩,storeInMemory_same s.toWorld ttlMs ..⟩
    · have kept : (s.toWorld.storeInMemory ttlMs owner other value).memory service key =
          s.memory service key := by
        refine setMemory_other fun same => ?_
        subst same
        exact put_other _ _ (fun equal => own ⟨rfl,equal⟩)
      exact Or.inl (kept.trans found)
  | invalidate call owner argument unused =>
    have kept : (s.toWorld.setMemory owner (invalidateMemory (s.memory owner) argument)).memory
        service key = s.memory service key := by
      refine setMemory_other fun same => ?_
      subst same
      exact invalidateMemory_other _ (fun covers => spared ⟨rfl,covers⟩)
    exact Or.inl (kept.trans found)
  | _ => exact Or.inl found

theorem Move.redis_kept (move : Move json ttlMs s event t) (spared : ¬ClearsRedis s key event)
    {entry : Entry String} (found : s.redis (redisKey key) = some entry) :
    t.redis (redisKey key) = some entry ∨ ∃ value, StoresInRedis s key value event ∧
      t.redis (redisKey key) = some ⟨json.stringify value,s.now + exSeconds ttlMs * 1000⟩ := by
  have stored (other : String) (value : V) (stores : other = key → StoresInRedis s key value event) :
      (s.toWorld.storeInRedis json ttlMs other value).redis (redisKey key) = some entry ∨
        ∃ latest, StoresInRedis s key latest event ∧
          (s.toWorld.storeInRedis json ttlMs other value).redis (redisKey key) =
            some ⟨json.stringify latest,s.now + exSeconds ttlMs * 1000⟩ := by
    by_cases same : other = key
    · subst same
      exact Or.inr ⟨value,stores rfl,put_same ..⟩
    · refine Or.inl ((put_other _ _ fun equal => ?_).trans found)
      exact same (redisKey_injective equal).symm
  cases move with
  | evict name => exact Or.inl ((erase_other _ fun equal => spared equal.symm).trans found)
  | redisSetOk call owner other defaultValue reads value waiting =>
    exact stored other value fun same => ⟨rfl,owner,defaultValue,reads,same ▸ waiting⟩
  | lateSet call record value owner pending =>
    exact stored record.key value fun same => ⟨record,owner,same,pending⟩
  | delKey call other waiting =>
    refine Or.inl ((erase_other _ fun equal => ?_).trans found)
    obtain rfl := redisKey_injective equal
    exact spared (Or.inl waiting)
  | delPage call keys cursor owed waiting =>
    have absent : redisKey key ∉ keys := fun member => spared (Or.inr ⟨keys,cursor,owed,waiting,member⟩)
    exact Or.inl ((if_neg absent).trans found)
  | _ => exact Or.inl found

section Runs

variable {ttlSeconds : Option String} (run : Run (machine (I := I) json ttlSeconds))

/-- A value stored from position `first` on is in the map, with its whole lifetime to go. -/
def Remembers (service : I) (key : String) (first i : Nat) : Prop :=
  ∃ entry, (run.state i).memory service key = some entry ∧
    (run.state first).now + cacheTtlMs ttlSeconds ≤ entry.expiresAt ∧
      ∃ j < i, first ≤ j ∧ ∃ event, run.Happens j event ∧
        StoresInMemory (run.state j) service key entry.value event

def RedisHolds (key : String) (first i : Nat) : Prop :=
  ∃ value expiresAt, (run.state i).redis (redisKey key) = some ⟨json.stringify value,expiresAt⟩ ∧
    (run.state first).now + cacheTtlMs ttlSeconds ≤ expiresAt ∧
      ∃ j < i, first ≤ j ∧ ∃ event, run.Happens j event ∧
        StoresInRedis (run.state j) key value event

variable {run}

theorem run_next {i : Nat} {event : Event I V} (happens : run.Happens i event) :
    run.state (i+1) = next json (cacheTtlMs ttlSeconds) (run.state i) event := run.state_succ happens

theorem stores_remembered {first : Nat} {value : V} {event : Event I V} (happens : run.Happens first event)
    (stores : StoresInMemory (run.state first) service key value event) :
    Remembers run service key first (first+1) := by
  cases event with
  | setInMemory call =>
    obtain ⟨defaultValue,reads,waiting⟩ := stores
    refine ⟨⟨value,(run.state first).now + cacheTtlMs ttlSeconds⟩,?_,Nat.le_refl _,first,
      Nat.lt_succ_self first,Nat.le_refl first,_,happens,⟨defaultValue,reads,waiting⟩⟩
    rw [run_next happens]
    simp only [next,waiting]
    exact storeInMemory_same (run.state first).toWorld (cacheTtlMs ttlSeconds) service key value
  | _ => contradiction

theorem stores_held {first : Nat} {value : V} {event : Event I V} (happens : run.Happens first event)
    (stores : StoresInRedis (run.state first) key value event) :
    RedisHolds run key first (first+1) := by
  refine ⟨value,(run.state first).now + exSeconds (cacheTtlMs ttlSeconds) * 1000,?_,?_,first,
    Nat.lt_succ_self first,Nat.le_refl first,event,happens,stores⟩
  · rw [run_next happens]
    cases event with
    | redisSet call ok =>
      obtain ⟨rfl,owner,defaultValue,reads,waiting⟩ := stores
      simp only [next,waiting]
      exact put_same ..
    | lateSet call =>
      obtain ⟨record,owner,rfl,pending⟩ := stores
      simp only [next,owner,pending]
      exact put_same ..
    | _ => contradiction
  · rw [exSeconds_cacheTtlMs]

theorem remembers_run {first last : Nat} (begins : Remembers run service key first (first+1))
    (spared : ∀ j event, first < j → j < last → run.Happens j event → ¬ClearsMemory service key event)
    (fresh : (run.state last).now ≤ (run.state first).now + cacheTtlMs ttlSeconds) :
    ∀ i, first + 1 ≤ i → i ≤ last → Remembers run service key first i := by
  apply run.induct_from (first+1) (fun i => i ≤ last → Remembers run service key first i)
  · exact fun _ => begins
  · intro i _ _ same ih bound
    obtain ⟨entry,found,lasting,j,before,rest⟩ := ih (Nat.le_of_succ_le bound)
    exact ⟨entry,by rw [same]; exact found,lasting,j,Nat.lt_succ_of_lt before,rest⟩
  · intro i event later happens _ ih bound
    obtain ⟨entry,found,lasting,j,before,rest⟩ := ih (Nat.le_of_succ_le bound)
    have clock : (run.state i).now ≤ (run.state last).now :=
      clock_monotone run (Nat.le_of_succ_le bound)
    rcases (run_move run happens).memory_kept (spared i event later bound happens) found
      (Nat.le_trans clock (Nat.le_trans fresh lasting)) with kept | ⟨value,stores,renewed⟩
    · exact ⟨entry,kept,lasting,j,Nat.lt_succ_of_lt before,rest⟩
    · have since : (run.state first).now ≤ (run.state i).now :=
        clock_monotone run (Nat.le_of_succ_le later)
      exact ⟨_,renewed,Nat.add_le_add_right since _,i,Nat.lt_succ_self i,Nat.le_of_succ_le later,
        event,happens,stores⟩

theorem holds_run {first last : Nat} (begins : RedisHolds run key first (first+1))
    (spared : ∀ j event, first < j → j < last → run.Happens j event →
      ¬ClearsRedis (run.state j) key event) :
    ∀ i, first + 1 ≤ i → i ≤ last → RedisHolds run key first i := by
  apply run.induct_from (first+1) (fun i => i ≤ last → RedisHolds run key first i)
  · exact fun _ => begins
  · intro i _ _ same ih bound
    obtain ⟨value,expiresAt,found,lasting,j,before,rest⟩ := ih (Nat.le_of_succ_le bound)
    exact ⟨value,expiresAt,by rw [same]; exact found,lasting,j,Nat.lt_succ_of_lt before,rest⟩
  · intro i event later happens _ ih bound
    obtain ⟨value,expiresAt,found,lasting,j,before,rest⟩ := ih (Nat.le_of_succ_le bound)
    rcases (run_move run happens).redis_kept (spared i event later bound happens) found with
      kept | ⟨value,stores,renewed⟩
    · exact ⟨value,expiresAt,kept,lasting,j,Nat.lt_succ_of_lt before,rest⟩
    · have since : (run.state first).now ≤ (run.state i).now :=
        clock_monotone run (Nat.le_of_succ_le later)
      rw [exSeconds_cacheTtlMs] at renewed
      exact ⟨value,_,renewed,Nat.add_le_add_right since _,i,Nat.lt_succ_self i,
        Nat.le_of_succ_le later,event,happens,stores⟩

/-- For its whole lifetime a stored value answers every `get` of its instance at once, with
what was last stored, unless an invalidation of that instance covers the key. -/
theorem memory_answers {first last : Nat} {value : V} {event : Event I V}
    (happens : run.Happens first event)
    (stores : StoresInMemory (run.state first) service key value event)
    (spared : ∀ j event, first < j → j < last → run.Happens j event → ¬ClearsMemory service key event)
    (fresh : (run.state last).now ≤ (run.state first).now + cacheTtlMs ttlSeconds)
    (later : first < last) {call : Nat} {defaultValue : V}
    (asks : run.Happens last (.get call service key defaultValue))
    (unused : (run.state last).gets call = none) :
    ∃ latest, (run.state (last+1)).gets call =
        some ⟨service,key,defaultValue,[],.returned (.stored latest) (run.state last).now⟩ ∧
      ∃ j < last, first ≤ j ∧ ∃ event, run.Happens j event ∧
        StoresInMemory (run.state j) service key latest event := by
  obtain ⟨entry,found,lasting,source⟩ :=
    remembers_run (stores_remembered happens stores) spared fresh last later (Nat.le_refl last)
  have alive : ¬entry.expiresAt < (run.state last).now := by omega
  refine ⟨entry.value,?_,source⟩
  rw [run_next asks]
  simp only [next,unused,beginGet,getFromMemory,found,if_neg alive]
  exact Function.update_self ..

/-- For its whole lifetime a value in Redis answers every GET that succeeds, of any instance:
the call goes on to its memory and reads no row. -/
theorem redis_answers {first last : Nat} {value : V} {event : Event I V}
    (happens : run.Happens first event) (stores : StoresInRedis (run.state first) key value event)
    (spared : ∀ j event, first < j → j < last → run.Happens j event →
      ¬ClearsRedis (run.state j) key event)
    (fresh : (run.state last).now ≤ (run.state first).now + cacheTtlMs ttlSeconds)
    (later : first < last) {call : Nat} {defaultValue : V} {reads : List Nat}
    (asks : run.Happens last (.redisGet call true))
    (waiting : (run.state last).gets call = some ⟨service,key,defaultValue,reads,.getFromRedis⟩) :
    ∃ latest, (run.state (last+1)).gets call = some ⟨service,key,defaultValue,
        (run.state last).now :: reads,.setInMemory latest⟩ ∧
      ∃ j < last, first ≤ j ∧ ∃ event, run.Happens j event ∧
        StoresInRedis (run.state j) key latest event := by
  obtain ⟨latest,expiresAt,found,lasting,source⟩ :=
    holds_run (stores_held happens stores) spared last later (Nat.le_refl last)
  have hit : live (run.state last).redis (run.state last).now (redisKey key) =
      some (json.stringify latest) := live_some.mpr ⟨_,found,rfl,Nat.le_trans fresh lasting⟩
  refine ⟨latest,?_,source⟩
  rw [run_next asks]
  simp only [next,waiting,World.redisReply,if_true,hit,getFromRedis,json.parse_stringify]
  exact Function.update_self ..

end Runs

/-- The first instance stores the row, and both are asked at the last moment of its lifetime. -/
def warmed : Run (machine (I := Bool) boolJson none) where
  start := idle
  events := [.updateRow "flag" true,.get 0 true "flag" false,.redisGet 0 true,.findByKey 0 true,
    .redisSet 0 true,.setInMemory 0,.tick 60000,.get 1 true "flag" false,.get 2 false "flag" false,
    .redisGet 2 true]
  starts := idle_initial
  legal := by simp [Legal,machine,Enabled]

theorem warmed_spared (j : Nat) (event : Event Bool Bool) (happens : warmed.Happens j event) :
    ¬ClearsMemory true "flag" event ∧ ¬ClearsRedis (warmed.state j) "flag" event := by
  have spared : ∀ event ∈ warmed.events, ∀ s, ¬ClearsMemory true "flag" event ∧
      ¬ClearsRedis s "flag" event := by
    simp [warmed,ClearsMemory,ClearsRedis]
  exact spared event (List.mem_of_getElem? happens) _

theorem warmed_stores : StoresInMemory (warmed.state 5) true "flag" true (.setInMemory 0) ∧
    StoresInRedis (warmed.state 4) "flag" true (.redisSet 0 true) :=
  ⟨⟨false,_,rfl⟩,rfl,true,false,_,rfl⟩

theorem warmed_from_memory : ∃ latest, (warmed.state 8).gets 1 =
    some ⟨true,"flag",false,[],.returned (.stored latest) 60000⟩ := by
  have happens : warmed.Happens 5 (.setInMemory 0) := rfl
  have asks : warmed.Happens 7 (.get 1 true "flag" false) := rfl
  obtain ⟨latest,answered,_⟩ := memory_answers happens warmed_stores.1
    (fun j event _ _ happens => (warmed_spared j event happens).1) (by decide) (by decide) asks rfl
  exact ⟨latest,answered⟩

theorem warmed_from_redis : ∃ latest, (warmed.state 10).gets 2 =
    some ⟨false,"flag",false,[60000],.setInMemory latest⟩ := by
  have happens : warmed.Happens 4 (.redisSet 0 true) := rfl
  have asks : warmed.Happens 9 (.redisGet 2 true) := rfl
  have waiting : (warmed.state 9).gets 2 = some ⟨false,"flag",false,[],.getFromRedis⟩ := rfl
  obtain ⟨latest,answered,_⟩ := redis_answers happens warmed_stores.2
    (fun j event _ _ happens => (warmed_spared j event happens).2) (by decide) (by decide) asks waiting
  exact ⟨latest,answered⟩

end TribeHub.SystemConfig
