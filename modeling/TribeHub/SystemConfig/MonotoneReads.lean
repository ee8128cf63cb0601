import TribeHub.SystemConfig.WholeOperations

/-! Reads of one instance never go back in time. An instance falls back to Redis
only when its memory entry has expired, and by then every older Redis entry has
expired too: no Redis entry outlives a memory entry of a newer version. -/
namespace TribeHub.SystemConfig
open Expiring Transition

variable {I V : Type}

inductive Operation (I V : Type) where
  | tick (ms : Nat)
  | evict (key : String)
  | updateRow (key : String) (value : V)
  | get (service : I) (key : String) (defaultValue : V) (replies : Replies)
  | invalidate (service : I) (argument : Option String)

def operate [DecidableEq I] (json : JsonCodec V) (ttlMs : Nat) (w : World I V) :
    Operation I V → World I V
  | .tick ms => {w with now := w.now + ms}
  | .evict key => {w with redis := erase w.redis key}
  | .updateRow key value => {w with db := Function.update w.db key (some value)}
  | .get service key defaultValue replies => (get json ttlMs w service key defaultValue replies).2
  | .invalidate service argument => invalidate w service argument

def Cached (json : JsonCodec V) (version : V → Nat) (w : World I V) (key text : String) : Prop :=
  ∃ value row, json.parse text = some value ∧ w.db key = some row ∧ version value ≤ version row

structure Started (json : JsonCodec V) (version : V → Nat) (ttlMs : Nat) (w : World I V) : Prop where
  memory : ∀ service key, w.memory service key = none
  redis : ∀ key entry, w.redis (redisKey key) = some entry →
    Cached json version w key entry.value ∧ entry.expiresAt ≤ w.now + ttlMs

/-- A stored value carries the number of its row version, and updates only raise it. -/
def operations [DecidableEq I] (json : JsonCodec V) (version : V → Nat)
    (ttlSeconds : Option String) : Machine (World I V) (Operation I V) where
  init := Started json version (cacheTtlMs ttlSeconds)
  enabled w
    | .updateRow key value => ∀ old, w.db key = some old → version old < version value
    | _ => True
  next := operate json (cacheTtlMs ttlSeconds)

/-- Caches never run ahead of their row, and a Redis entry that is older than a
memory entry of its key expires no later than it. -/
structure Ordered (json : JsonCodec V) (version : V → Nat) (ttlMs : Nat) (w : World I V) : Prop where
  redis : ∀ key entry, w.redis (redisKey key) = some entry →
    Cached json version w key entry.value ∧ entry.expiresAt ≤ w.now + ttlMs
  memory : ∀ service key entry, w.memory service key = some entry →
    ∃ row, w.db key = some row ∧ version entry.value ≤ version row
  expiry : ∀ service key entry cached value, w.memory service key = some entry →
    w.redis (redisKey key) = some cached → json.parse cached.value = some value →
    version value < version entry.value → cached.expiresAt ≤ entry.expiresAt

/-- Everything the instance can still answer with is version `n` or newer. -/
structure AtLeast (json : JsonCodec V) (version : V → Nat) (service : I) (key : String) (n : Nat)
    (w : World I V) : Prop where
  row : ∃ row, w.db key = some row ∧ n ≤ version row
  memory : ∀ entry, w.memory service key = some entry → n ≤ version entry.value
  redis : w.memory service key = none → ∀ raw value, live w.redis w.now (redisKey key) = some raw →
    json.parse raw = some value → n ≤ version value

section Step

variable {json : JsonCodec V} {version : V → Nat} {ttlMs : Nat} {w v : World I V}

theorem started_ordered (started : Started json version ttlMs w) :
    Ordered json version ttlMs w where
  redis := started.redis
  memory service key entry found := by simp [started.memory] at found
  expiry service key entry cached value found := by simp [started.memory] at found

theorem Ordered.less (ordered : Ordered json version ttlMs w) (row : v.db = w.db)
    (elapsed : w.now ≤ v.now)
    (redis : ∀ key entry, v.redis key = some entry → w.redis key = some entry)
    (memory : ∀ service key entry, v.memory service key = some entry →
      w.memory service key = some entry) : Ordered json version ttlMs v where
  redis key entry found := by
    obtain ⟨cached,bound⟩ := ordered.redis key entry (redis _ _ found)
    refine ⟨?_,Nat.le_trans bound (Nat.add_le_add_right elapsed ttlMs)⟩
    simpa only [Cached,row] using cached
  memory service key entry found := by
    rw [row]
    exact ordered.memory service key entry (memory service key entry found)
  expiry service key entry cached value found read :=
    ordered.expiry service key entry cached value (memory _ _ _ found) (redis _ _ read)

/-- A row that had reached a version has still reached it after the update. -/
theorem row_grown {key other : String} {value : V} {bound : Nat}
    (newer : ∀ old, w.db key = some old → version old < version value)
    (reached : ∃ row, w.db other = some row ∧ bound ≤ version row) :
    ∃ row, Function.update w.db key (some value) other = some row ∧ bound ≤ version row := by
  obtain ⟨row,found,reached⟩ := reached
  by_cases same : other = key
  · subst other
    exact ⟨value,by simp,Nat.le_trans reached (Nat.le_of_lt (newer row found))⟩
  · exact ⟨row,by simpa [same] using found,reached⟩

theorem Ordered.updateRow (ordered : Ordered json version ttlMs w) {key : String} {value : V}
    (newer : ∀ old, w.db key = some old → version old < version value) :
    Ordered json version ttlMs {w with db := Function.update w.db key (some value)} where
  redis other entry found := by
    obtain ⟨⟨old,row,parsed,reached⟩,bound⟩ := ordered.redis other entry found
    obtain ⟨later,now⟩ := row_grown newer ⟨row,reached⟩
    exact ⟨⟨old,later,parsed,now⟩,bound⟩
  memory service other entry found := row_grown newer (ordered.memory service other entry found)
  expiry := ordered.expiry

theorem Ordered.storeInRedis (ordered : Ordered json version ttlMs w) {key : String} {value : V}
    (row : w.db key = some value) (seconds : exSeconds ttlMs * 1000 = ttlMs) :
    Ordered json version ttlMs (w.storeInRedis json ttlMs key value) where
  redis other entry found := by
    rcases put_cases found with ⟨same,rfl⟩ | ⟨_,before⟩
    · obtain rfl := redisKey_injective same
      exact ⟨⟨value,value,json.parse_stringify value,row,Nat.le_refl _⟩,by simp [seconds,World.storeInRedis]⟩
    · exact ordered.redis other entry before
  memory := ordered.memory
  expiry service other entry cached read found written parsed older := by
    rcases put_cases written with ⟨same,rfl⟩ | ⟨_,before⟩
    · -- The new entry holds the row itself, so no memory entry is newer.
      obtain rfl := redisKey_injective same
      obtain ⟨current,present,reached⟩ := ordered.memory service other entry found
      obtain rfl := Option.some.inj (row.symm.trans present)
      obtain rfl := Option.some.inj ((json.parse_stringify value).symm.trans parsed)
      omega
    · exact ordered.expiry service other entry cached read found before parsed older

theorem AtLeast.less {service : I} {key : String} {n : Nat}
    (bounded : AtLeast json version service key n w) (row : v.db = w.db) (elapsed : w.now ≤ v.now)
    (redis : ∀ key entry, v.redis key = some entry → w.redis key = some entry)
    (memory : v.memory service key = w.memory service key) :
    AtLeast json version service key n v where
  row := by
    rw [row]
    exact bounded.row
  memory entry found := bounded.memory entry (memory ▸ found)
  redis absent raw value read :=
    bounded.redis (memory ▸ absent) raw value (live_of_less (redis (redisKey key)) elapsed read)

theorem AtLeast.updateRow {service : I} {key other : String} {n : Nat} {value : V}
    (bounded : AtLeast json version service key n w)
    (newer : ∀ old, w.db other = some old → version old < version value) :
    AtLeast json version service key n {w with db := Function.update w.db other (some value)} where
  row := row_grown newer bounded.row
  memory := bounded.memory
  redis := bounded.redis

/-- What Redis offers an instance whose memory has nothing live. An entry older than
the expired one has expired with it. -/
theorem AtLeast.redis_live {service : I} {key : String} {n : Nat}
    (bounded : AtLeast json version service key n w) (ordered : Ordered json version ttlMs w)
    (expired : ∀ entry, w.memory service key = some entry → entry.expiresAt < w.now)
    {raw : String} {value : V} (read : live w.redis w.now (redisKey key) = some raw)
    (parsed : json.parse raw = some value) : n ≤ version value := by
  cases found : w.memory service key with
  | none => exact bounded.redis found raw value read parsed
  | some entry =>
    have reached := bounded.memory entry found
    have lapsed := expired entry found
    obtain ⟨cached,stored,rfl,alive⟩ := live_some.mp read
    by_contra older
    have outlived := ordered.expiry service key entry cached value found stored parsed (by omega)
    omega

theorem AtLeast.storeInRedis {service : I} {key other : String} {n : Nat} {value : V}
    (bounded : AtLeast json version service key n w) (row : w.db other = some value) :
    AtLeast json version service key n (w.storeInRedis json ttlMs other value) where
  row := bounded.row
  memory := bounded.memory
  redis absent raw found read parsed := by
    obtain ⟨entry,stored,rfl,alive⟩ := live_some.mp read
    rcases put_cases stored with ⟨same,rfl⟩ | ⟨_,before⟩
    · obtain rfl := redisKey_injective same
      obtain ⟨current,present,reached⟩ := bounded.row
      obtain rfl := Option.some.inj (row.symm.trans present)
      obtain rfl := Option.some.inj ((json.parse_stringify value).symm.trans parsed)
      exact reached
    · exact bounded.redis absent entry.value found (live_some.mpr ⟨entry,before,rfl,alive⟩) parsed

variable [DecidableEq I]

theorem Ordered.storeInMemory (ordered : Ordered json version ttlMs w) {service : I} {key : String}
    {value : V} (reached : ∃ row, w.db key = some row ∧ version value ≤ version row) :
    Ordered json version ttlMs (w.storeInMemory ttlMs service key value) where
  redis := ordered.redis
  memory other name entry found := by
    rcases storeInMemory_some found with ⟨rfl,rfl,rfl⟩ | before
    · exact reached
    · exact ordered.memory other name entry before
  expiry other name entry cached read found stored parsed older := by
    rcases storeInMemory_some found with ⟨rfl,rfl,rfl⟩ | before
    · exact (ordered.redis name cached stored).2
    · exact ordered.expiry other name entry cached read before stored parsed older

theorem AtLeast.storeInMemory {service owner : I} {key other : String} {n : Nat} {value : V}
    (bounded : AtLeast json version service key n w)
    (new : service = owner → key = other → n ≤ version value) :
    AtLeast json version service key n (w.storeInMemory ttlMs owner other value) where
  row := bounded.row
  memory entry found := by
    rcases storeInMemory_some found with ⟨same,equal,rfl⟩ | before
    · exact new same equal
    · exact bounded.memory entry before
  redis absent := by
    refine bounded.redis ?_
    cases found : w.memory service key with
    | none => rfl
    | some entry =>
      by_cases same : service = owner ∧ key = other
      · obtain ⟨rfl,rfl⟩ := same
        simp [World.storeInMemory,World.setMemory,setInMemory] at absent
      · have kept : (w.storeInMemory ttlMs owner other value).memory service key =
            w.memory service key := by
          apply setMemory_other
          intro equal
          subst equal
          exact put_other _ _ (fun equal => same ⟨rfl,equal⟩)
        rw [kept,found] at absent
        contradiction

theorem AtLeast.erase {service owner : I} {key other : String} {n : Nat}
    (bounded : AtLeast json version service key n w) (ordered : Ordered json version ttlMs w)
    (expired : ∀ entry, w.memory owner other = some entry → entry.expiresAt < w.now) :
    AtLeast json version service key n (w.setMemory owner (erase (w.memory owner) other)) where
  row := bounded.row
  memory entry found := bounded.memory entry (erased_some found)
  redis absent raw value read parsed := by
    refine bounded.redis_live ordered (fun entry found => ?_) read parsed
    by_cases same : service = owner ∧ key = other
    · obtain ⟨rfl,rfl⟩ := same
      exact expired entry found
    · have kept : (w.setMemory owner (Expiring.erase (w.memory owner) other)).memory service key =
          w.memory service key := by
        apply setMemory_other
        intro equal
        subst equal
        exact erase_other _ (fun equal => same ⟨rfl,equal⟩)
      rw [kept,found] at absent
      contradiction

theorem clearRedisNamespace_some {redis : Store String String} {key : String} {entry : Entry String}
    (found : clearRedisNamespace redis key = some entry) : redis key = some entry := by
  unfold clearRedisNamespace at found
  split at found
  · contradiction
  · exact found

theorem clearRedisNamespace_redisKey (redis : Store String String) (key : String) :
    clearRedisNamespace redis (redisKey key) = none := by
  simp [clearRedisNamespace,redisKey]

theorem invalidate_memory (owner service : I) (argument : Option String) :
    (invalidate w owner argument).memory service =
      if service = owner then invalidateMemory (w.memory service) argument else w.memory service := by
  have same : (invalidate w owner argument).memory =
      (w.setMemory owner (invalidateMemory (w.memory owner) argument)).memory := by
    unfold invalidate
    split <;> rfl
  rw [same]
  by_cases equal : service = owner
  · subst owner
    simp [World.setMemory]
  · simp [World.setMemory,equal]

theorem invalidate_row (owner : I) (argument : Option String) :
    (invalidate w owner argument).db = w.db ∧ (invalidate w owner argument).now = w.now := by
  unfold invalidate
  split <;> exact ⟨rfl,rfl⟩

theorem invalidate_redis_some {owner : I} {argument : Option String} {key : String}
    {entry : Entry String} (found : (invalidate w owner argument).redis key = some entry) :
    w.redis key = some entry := by
  unfold invalidate at found
  split at found
  · exact (erase_some found).2
  · exact clearRedisNamespace_some found

theorem invalidate_redis_covers (owner : I) {argument : Option String} {key : String}
    (covers : Covers argument key) : (invalidate w owner argument).redis (redisKey key) = none := by
  unfold invalidate
  rcases covers with all | one
  · rw [all]
    exact clearRedisNamespace_redisKey w.redis key
  · rw [one]
    exact erase_same w.redis (redisKey key)

theorem Ordered.invalidate (ordered : Ordered json version ttlMs w) (owner : I)
    (argument : Option String) :
    Ordered json version ttlMs (SystemConfig.invalidate w owner argument) := by
  obtain ⟨row,clock⟩ := invalidate_row (w := w) owner argument
  refine ordered.less row (Nat.le_of_eq clock.symm) (fun key entry => invalidate_redis_some) ?_
  intro service key entry found
  rw [invalidate_memory] at found
  split at found
  · exact invalidateMemory_some found
  · exact found

theorem AtLeast.invalidate {service : I} {key : String} {n : Nat}
    (bounded : AtLeast json version service key n w) (owner : I) (argument : Option String) :
    AtLeast json version service key n (SystemConfig.invalidate w owner argument) := by
  obtain ⟨row,clock⟩ := invalidate_row (w := w) owner argument
  by_cases covers : service = owner ∧ Covers argument key
  · obtain ⟨rfl,covers⟩ := covers
    have forgotten : (SystemConfig.invalidate w service argument).memory service key = none := by
      rw [invalidate_memory,if_pos rfl]
      exact invalidateMemory_covers _ covers
    refine ⟨row ▸ bounded.row,fun entry found => ?_,fun _ raw value read => ?_⟩
    · rw [forgotten] at found
      contradiction
    · rw [live_none (invalidate_redis_covers service covers)] at read
      contradiction
  · refine bounded.less row (Nat.le_of_eq clock.symm) (fun key entry => invalidate_redis_some) ?_
    rw [invalidate_memory]
    split
    · rename_i same
      exact invalidateMemory_other _ (fun hits => covers ⟨same,hits⟩)
    · rfl

section Get

variable {service : I} {key : String} {defaultValue : V} {answer : Result V}

theorem Ordered.get (ordered : Ordered json version ttlMs w)
    (seconds : exSeconds ttlMs * 1000 = ttlMs)
    (path : GetPath json ttlMs w service key defaultValue (answer,v)) :
    Ordered json version ttlMs v := by
  cases path with
  | memoryHit entry found alive => exact ordered
  | redisHit raw value expired found parsed =>
    obtain ⟨entry,stored,rfl,_⟩ := live_some.mp found
    obtain ⟨⟨cached,row,read,present,reached⟩,_⟩ := ordered.redis key entry stored
    obtain rfl := Option.some.inj (read.symm.trans parsed)
    exact ordered.storeInMemory ⟨row,present,reached⟩
  | noRow expired =>
    exact ordered.less rfl (Nat.le_refl _) (fun _ _ found => found) (fun _ _ _ => erased_some)
  | row value written expired found =>
    have reached : ∃ row, w.db key = some row ∧ version value ≤ version row :=
      ⟨value,found,Nat.le_refl _⟩
    cases written with
    | false => exact ordered.storeInMemory reached
    | true => exact (ordered.storeInRedis found seconds).storeInMemory reached

theorem AtLeast.answers {n : Nat} {value : V} (bounded : AtLeast json version service key n w)
    (ordered : Ordered json version ttlMs w)
    (path : GetPath json ttlMs w service key defaultValue (.stored value,v)) :
    n ≤ version value := by
  cases path with
  | memoryHit entry found alive => exact bounded.memory entry found
  | redisHit raw value expired found parsed =>
    exact bounded.redis_live ordered expired found parsed
  | row value written expired found =>
    obtain ⟨current,present,reached⟩ := bounded.row
    obtain rfl := Option.some.inj (present.symm.trans found)
    exact reached

theorem AtLeast.get {owner : I} {other : String} {n : Nat}
    (bounded : AtLeast json version owner other n w) (ordered : Ordered json version ttlMs w)
    (path : GetPath json ttlMs w service key defaultValue (answer,v)) :
    AtLeast json version owner other n v := by
  cases path with
  | memoryHit entry found alive => exact bounded
  | redisHit raw value expired found parsed =>
    apply bounded.storeInMemory
    intro equal same
    subst equal same
    exact bounded.redis_live ordered expired found parsed
  | noRow expired => exact bounded.erase ordered expired
  | row value written expired found =>
    have reached : owner = service → other = key → n ≤ version value := by
      intro equal same
      subst equal same
      obtain ⟨current,present,reached⟩ := bounded.row
      obtain rfl := Option.some.inj (present.symm.trans found)
      exact reached
    cases written with
    | false => exact bounded.storeInMemory reached
    | true => exact (bounded.storeInRedis found).storeInMemory reached

theorem GetPath.remembered {value : V}
    (path : GetPath json ttlMs w service key defaultValue (.stored value,v)) :
    ∃ entry, v.memory service key = some entry ∧ entry.value = value := by
  cases path with
  | memoryHit entry found alive => exact ⟨entry,found,rfl⟩
  | redisHit raw value expired found parsed =>
    exact ⟨_,storeInMemory_same w ttlMs service key value,rfl⟩
  | row value written expired found => exact ⟨_,storeInMemory_same _ ttlMs service key value,rfl⟩

theorem atLeast_answered {value : V} (ordered : Ordered json version ttlMs v)
    (path : GetPath json ttlMs w service key defaultValue (.stored value,v)) :
    AtLeast json version service key (version value) v := by
  obtain ⟨entry,found,rfl⟩ := path.remembered
  refine ⟨ordered.memory service key entry found,fun other read => ?_,fun absent => ?_⟩
  · obtain rfl := Option.some.inj (found.symm.trans read)
    exact Nat.le_refl _
  · rw [found] at absent
    contradiction

end Get

end Step

section Runs

variable [DecidableEq I] {json : JsonCodec V} {version : V → Nat} {ttlSeconds : Option String}

theorem get_path_of (ttlMs : Nat) (w : World I V) (service : I) (key : String) (defaultValue : V)
    (replies : Replies) : GetPath json ttlMs w service key defaultValue
      ((get json ttlMs w service key defaultValue replies).1,
        operate json ttlMs w (.get service key defaultValue replies)) :=
  get_path json ttlMs w service key defaultValue replies

theorem ordered_step (w : World I V) (operation : Operation I V)
    (allowed : (operations json version ttlSeconds).enabled w operation)
    (ordered : Ordered json version (cacheTtlMs ttlSeconds) w) :
    Ordered json version (cacheTtlMs ttlSeconds)
      (operate json (cacheTtlMs ttlSeconds) w operation) := by
  cases operation with
  | tick ms =>
    exact ordered.less rfl (Nat.le_add_right _ _) (fun _ _ found => found) (fun _ _ _ found => found)
  | evict key =>
    exact ordered.less rfl (Nat.le_refl _) (fun _ _ found => (erase_some found).2)
      (fun _ _ _ found => found)
  | updateRow key value => exact ordered.updateRow allowed
  | get service key defaultValue replies =>
    exact ordered.get (exSeconds_cacheTtlMs ttlSeconds)
      (get_path_of _ w service key defaultValue replies)
  | invalidate service argument => exact ordered.invalidate service argument

theorem atLeast_step {service : I} {key : String} {n : Nat} (w : World I V)
    (operation : Operation I V) (allowed : (operations json version ttlSeconds).enabled w operation)
    (ordered : Ordered json version (cacheTtlMs ttlSeconds) w)
    (bounded : AtLeast json version service key n w) :
    AtLeast json version service key n (operate json (cacheTtlMs ttlSeconds) w operation) := by
  cases operation with
  | tick ms => exact bounded.less rfl (Nat.le_add_right _ _) (fun _ _ found => found) rfl
  | evict other =>
    exact bounded.less rfl (Nat.le_refl _) (fun _ _ found => (erase_some found).2) rfl
  | updateRow other value => exact bounded.updateRow allowed
  | get owner other defaultValue replies =>
    exact bounded.get ordered (get_path_of _ w owner other defaultValue replies)
  | invalidate owner argument => exact bounded.invalidate owner argument

theorem ordered_run (run : Run (operations (I := I) json version ttlSeconds)) (i : Nat) :
    Ordered json version (cacheTtlMs ttlSeconds) (run.state i) :=
  run.invariant _ (fun _ => started_ordered) ordered_step i

def Answered (run : Run (operations (I := I) json version ttlSeconds)) (i : Nat) (service : I)
    (key : String) (value : V) : Prop :=
  ∃ defaultValue replies, run.Happens i (.get service key defaultValue replies) ∧
    (get json (cacheTtlMs ttlSeconds) (run.state i) service key defaultValue replies).1 =
      .stored value

theorem Answered.path {run : Run (operations (I := I) json version ttlSeconds)} {i : Nat}
    {service : I} {key : String} {value : V} (answered : Answered run i service key value) :
    ∃ defaultValue, GetPath json (cacheTtlMs ttlSeconds) (run.state i) service key defaultValue
      (.stored value,run.state (i+1)) := by
  obtain ⟨defaultValue,replies,happens,equal⟩ := answered
  refine ⟨defaultValue,?_⟩
  rw [run.state_succ happens,← equal]
  exact get_path_of _ _ service key defaultValue replies

theorem atLeast_run (run : Run (operations (I := I) json version ttlSeconds)) {service : I}
    {key : String} {value : V} {first : Nat} (answered : Answered run first service key value) :
    ∀ i, first < i → AtLeast json version service key (version value) (run.state i) := by
  obtain ⟨defaultValue,path⟩ := answered.path
  apply run.invariant_from (first+1) (AtLeast json version service key (version value))
  · exact atLeast_answered (ordered_run run (first+1)) path
  · intro i operation _ happens bounded
    exact atLeast_step _ operation (run.enabled happens) (ordered_run run i) bounded

/-- Once an instance has answered with a version of a row, it never answers with an older one. -/
theorem reads_monotone (run : Run (operations (I := I) json version ttlSeconds)) {service : I}
    {key : String} {first later : Nat} {old new : V} (order : first < later)
    (before : Answered run first service key old) (after : Answered run later service key new) :
    version old ≤ version new := by
  obtain ⟨defaultValue,path⟩ := after.path
  exact (atLeast_run run before later order).answers (ordered_run run later) path

end Runs

def unaryJson : JsonCodec Nat where
  stringify n := String.ofList (List.replicate n '1')
  parse text := some text.length
  parse_stringify n := by simp

/-- Instance `false` caches version 1, then falls back to what instance `true` wrote. -/
def fallback : Run (operations (I := Bool) unaryJson id none) where
  start := ⟨0,fun _ => some 1,fun _ => none,fun _ _ => none⟩
  events := [.get false "flag" 0 ⟨true,true,false⟩,.updateRow "flag" 2,
    .get true "flag" 0 ⟨true,true,true⟩,.tick 60001,.updateRow "flag" 3,
    .get true "flag" 0 ⟨false,true,true⟩,.get false "flag" 0 ⟨true,false,true⟩]
  starts := ⟨fun _ _ => rfl,fun _ _ found => by simp at found⟩
  legal := by
    refine ⟨trivial,?_,trivial,trivial,?_,trivial,trivial,trivial⟩
    · intro old found
      cases found
      decide
    · intro old found
      cases found
      decide

theorem fallback_monotone : ∃ old new, Answered fallback 0 false "flag" old ∧
    Answered fallback 6 false "flag" new ∧ id old ≤ id new := by
  have first : Answered fallback 0 false "flag" 1 := ⟨0,⟨true,true,false⟩,rfl,rfl⟩
  have last : Answered fallback 6 false "flag" 3 := ⟨0,⟨true,false,true⟩,rfl,rfl⟩
  exact ⟨1,3,first,last,reads_monotone fallback (by decide) first last⟩

end TribeHub.SystemConfig
