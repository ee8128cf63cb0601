import TribeHub.Library.Simulation
import TribeHub.SystemConfig.Interleaving

/-! One key of the service against all the others. A run is followed by the run that keeps
only the events about one key, in a world where no other key has a row or an entry: what the
service shows of the key, and what its calls return, is the same in both. -/
namespace TribeHub.SystemConfig
open Expiring Transition

variable {I V : Type}

/-- The same world for the key, with nothing of any other key. -/
structure OnlyAt (key : String) (w v : World I V) : Prop where
  now : v.now = w.now
  row : v.db key = w.db key
  redis : v.redis (redisKey key) = w.redis (redisKey key)
  memory : ∀ service, v.memory service key = w.memory service key
  noRow : ∀ other, other ≠ key → v.db other = none
  noRedis : ∀ stored, stored ≠ redisKey key → v.redis stored = none
  noMemory : ∀ service other, other ≠ key → v.memory service other = none

def callsFor (key : String) (gets : Nat → Option (GetCall I V)) : Nat → Option (GetCall I V) :=
  fun call => (gets call).filter (fun record => record.key = key)

/-- `t` is `s` as far as the key goes, and holds nothing else. -/
structure SeenAt (key : String) (s t : State I V) : Prop where
  world : OnlyAt key s.toWorld t.toWorld
  gets : t.gets = callsFor key s.gets

/-- An invalidation that may delete the key, beside its twin, or one that may not. The twin
owes no more keys. -/
inductive Twin (key : String) : Option InvalidatePc → Option InvalidatePc → Prop
  | absent : Twin key none none
  | other (deleted) (distinct : deleted ≠ key) : Twin key (some (.deleteFromRedis deleted)) none
  | done : Twin key (some .resolved) none
  | resolved : Twin key (some .resolved) (some .resolved)
  | delete : Twin key (some (.deleteFromRedis key)) (some (.deleteFromRedis key))
  | scan (cursor owed fewer) (less : ∀ stored, fewer stored → owed stored) :
      Twin key (some (.scan cursor owed)) (some (.scan cursor fewer))
  | del (keys cursor owed fewer) (less : ∀ stored, fewer stored → owed stored) :
      Twin key (some (.del keys cursor owed)) (some (.del keys cursor fewer))

structure Isolated (key : String) (s t : State I V) : Prop extends SeenAt key s t where
  late : ∀ call record, s.gets call = some record → record.key = key → t.late call = s.late call
  unused : ∀ call, s.gets call = none → s.late call = none ∧ t.late call = none
  invalidations : ∀ call, Twin key (s.invalidations call) (t.invalidations call)

def InvalidatePc.Concerns (key : String) : InvalidatePc → Prop
  | .deleteFromRedis deleted => deleted = key
  | .scan _ _ => True
  | .del _ _ _ => True
  | .resolved => False

def CallFor (key : String) (s : State I V) (call : Nat) : Prop :=
  ∃ record, s.gets call = some record ∧ record.key = key

/-- The events that are about the key: its row, its Redis entry, its calls, and the
invalidations that cover it. -/
def Concerns (key : String) (s : State I V) : Event I V → Prop
  | .tick _ => True
  | .updateRow other _ => other = key
  | .deleteRow other => other = key
  | .evict stored => stored = redisKey key
  | .get call _ other _ => s.gets call = none ∧ other = key
  | .redisGet call _ => CallFor key s call
  | .findByKey call _ => CallFor key s call
  | .redisSet call _ => CallFor key s call
  | .lateSet call => CallFor key s call
  | .setInMemory call => CallFor key s call
  | .invalidate call _ argument => s.invalidations call = none ∧ Covers argument key
  | .redisDel call _ => ∃ pc, s.invalidations call = some pc ∧ pc.Concerns key
  | .scan call _ _ _ => ∃ pc, s.invalidations call = some pc ∧ pc.Concerns key
  | .missing call => ∃ pc, s.invalidations call = some pc ∧ pc.Concerns key

/-- An event about the key is repeated, any other is left out. -/
def Repeats (key : String) (s : State I V) (event : Event I V) (_ : State I V)
    (block : List (Event I V)) : Prop :=
  (Concerns key s event ∧ block = [event]) ∨ (¬Concerns key s event ∧ block = [])

section Worlds

variable {key : String} {w v : World I V}

theorem OnlyAt.elsewhere (only : OnlyAt key w v) {u : World I V} (now : u.now = w.now)
    (row : u.db key = w.db key) (redis : u.redis (redisKey key) = w.redis (redisKey key))
    (memory : ∀ service, u.memory service key = w.memory service key) : OnlyAt key u v where
  now := only.now.trans now.symm
  row := only.row.trans row.symm
  redis := only.redis.trans redis.symm
  memory service := (only.memory service).trans (memory service).symm
  noRow := only.noRow
  noRedis := only.noRedis
  noMemory := only.noMemory

theorem OnlyAt.setRow (only : OnlyAt key w v) (row : Option V) :
    OnlyAt key {w with db := Function.update w.db key row} {v with db := Function.update v.db key row} where
  now := only.now
  row := by simp
  redis := only.redis
  memory := only.memory
  noRow other distinct := by simpa [distinct] using only.noRow other distinct
  noRedis := only.noRedis
  noMemory := only.noMemory

theorem OnlyAt.setRedis (only : OnlyAt key w v) {first second : Store String String}
    (same : second (redisKey key) = first (redisKey key))
    (less : ∀ stored, stored ≠ redisKey key → v.redis stored = none → second stored = none) :
    OnlyAt key {w with redis := first} {v with redis := second} where
  now := only.now
  row := only.row
  redis := same
  memory := only.memory
  noRow := only.noRow
  noRedis stored distinct := less stored distinct (only.noRedis stored distinct)
  noMemory := only.noMemory

theorem OnlyAt.storeInRedis (only : OnlyAt key w v) (json : JsonCodec V) (ttlMs : Nat) (value : V) :
    OnlyAt key (w.storeInRedis json ttlMs key value) (v.storeInRedis json ttlMs key value) := by
  refine only.setRedis ?_ (fun stored distinct absent => ?_)
  · simp [setInRedis,only.now]
  · simpa [setInRedis,distinct] using absent

theorem OnlyAt.redisReply_eq (only : OnlyAt key w v) (ok : Bool) :
    v.redisReply key ok = w.redisReply key ok := by
  simp only [World.redisReply,live,only.redis,only.now]

theorem OnlyAt.findByKey_eq (only : OnlyAt key w v) (ok : Bool) :
    v.findByKey key ok = w.findByKey key ok := by
  simp only [World.findByKey,only.row]

theorem OnlyAt.live_of (only : OnlyAt key w v) {stored : String}
    (present : live v.redis v.now stored ≠ none) : live w.redis w.now stored ≠ none := by
  by_cases same : stored = redisKey key
  · subst same
    simpa only [live,only.redis,only.now] using present
  · exact absurd (live_none (only.noRedis stored same)) present

variable [DecidableEq I]

theorem OnlyAt.setMemory (only : OnlyAt key w v) (service : I) {first second : Store String V}
    (same : second key = first key)
    (less : ∀ other, other ≠ key → v.memory service other = none → second other = none) :
    OnlyAt key (w.setMemory service first) (v.setMemory service second) where
  now := only.now
  row := only.row
  redis := only.redis
  memory owner := by
    by_cases equal : owner = service
    · subst owner
      simpa [World.setMemory] using same
    · simpa [World.setMemory,equal] using only.memory owner
  noRow := only.noRow
  noRedis := only.noRedis
  noMemory owner other distinct := by
    by_cases equal : owner = service
    · subst owner
      simpa [World.setMemory] using less other distinct (only.noMemory service other distinct)
    · simpa [World.setMemory,equal] using only.noMemory owner other distinct

theorem OnlyAt.storeInMemory (only : OnlyAt key w v) (ttlMs : Nat) (service : I) (value : V) :
    OnlyAt key (w.storeInMemory ttlMs service key value)
      (v.storeInMemory ttlMs service key value) := by
  refine only.setMemory service ?_ (fun other distinct absent => ?_)
  · simp [setInMemory,only.now]
  · simpa [setInMemory,distinct] using absent

end Worlds

section Calls

variable {key : String} {s t : State I V}

theorem callsFor_update (gets : Nat → Option (GetCall I V)) (call : Nat) (record : GetCall I V) :
    callsFor key (Function.update gets call (some record)) =
      Function.update (callsFor key gets) call (if record.key = key then some record else none) := by
  funext other
  by_cases same : other = call
  · subst other
    by_cases named : record.key = key <;> simp [callsFor,named]
  · simp [callsFor,same]

theorem SeenAt.call (seen : SeenAt key s t) {call : Nat} {record : GetCall I V}
    (found : s.gets call = some record) (named : record.key = key) : t.gets call = some record := by
  simp [seen.gets,callsFor,found,named]

theorem SeenAt.unused (seen : SeenAt key s t) {call : Nat} (unused : s.gets call = none) :
    t.gets call = none := by
  simp [seen.gets,callsFor,unused]

theorem gets_both (gets : t.gets = callsFor key s.gets) (call : Nat) {record : GetCall I V}
    (named : record.key = key) :
    (t.setGet call record).gets = callsFor key (s.setGet call record).gets := by
  simp only [State.setGet]
  rw [callsFor_update,if_pos named,gets]

theorem gets_one (gets : t.gets = callsFor key s.gets) (call : Nat) {record : GetCall I V}
    (foreign : record.key ≠ key) (owner : ∀ old, s.gets call = some old → old.key ≠ key) :
    t.gets = callsFor key (s.setGet call record).gets := by
  simp only [State.setGet]
  rw [callsFor_update,if_neg foreign,← gets]
  funext other
  by_cases same : other = call
  · subst other
    rw [gets,Function.update_self]
    cases found : s.gets call with
    | none => simp [callsFor,found]
    | some old => simp [callsFor,found,owner old found]
  · rw [Function.update_of_ne same]

theorem Isolated.withWorld (isolated : Isolated key s t) {w : World I V}
    (world : OnlyAt key w t.toWorld) : Isolated key {s with toWorld := w} t :=
  ⟨⟨world,isolated.gets⟩,isolated.late,isolated.unused,isolated.invalidations⟩

theorem Isolated.withWorlds (isolated : Isolated key s t) {w v : World I V} (world : OnlyAt key w v) :
    Isolated key {s with toWorld := w} {t with toWorld := v} :=
  ⟨⟨world,isolated.gets⟩,isolated.late,isolated.unused,isolated.invalidations⟩

theorem Isolated.ownCall (isolated : Isolated key s t) (call : Nat) (record : GetCall I V)
    (named : record.key = key) (owner : ∀ old, s.gets call = some old → old.key = key) :
    Isolated key (s.setGet call record) (t.setGet call record) where
  world := isolated.world
  gets := gets_both isolated.gets call named
  late other found read same := by
    rcases State.setGet_cases read with ⟨rfl,rfl⟩ | ⟨_,before⟩
    · cases old : s.gets other with
      | none =>
        obtain ⟨first,second⟩ := isolated.unused other old
        exact second.trans first.symm
      | some old' => exact isolated.late other old' old (owner old' old)
    · exact isolated.late other found before same
  unused other free := by
    by_cases same : other = call
    · subst other
      simp [State.setGet] at free
    · exact isolated.unused other (by simpa [State.setGet,same] using free)
  invalidations := isolated.invalidations

theorem Isolated.otherCall (isolated : Isolated key s t) (call : Nat) (record : GetCall I V)
    (foreign : record.key ≠ key) (owner : ∀ old, s.gets call = some old → old.key ≠ key) :
    Isolated key (s.setGet call record) t where
  world := isolated.world
  gets := gets_one isolated.gets call foreign owner
  late other found read same := by
    rcases State.setGet_cases read with ⟨_,rfl⟩ | ⟨_,before⟩
    · exact absurd same foreign
    · exact isolated.late other found before same
  unused other free := by
    by_cases same : other = call
    · subst other
      simp [State.setGet] at free
    · exact isolated.unused other (by simpa [State.setGet,same] using free)
  invalidations := isolated.invalidations

theorem Isolated.ownLate (isolated : Isolated key s t) {call : Nat} {record : GetCall I V}
    (owner : s.gets call = some record) (value : Option V) :
    Isolated key {s with late := Function.update s.late call value}
      {t with late := Function.update t.late call value} where
  world := isolated.world
  gets := isolated.gets
  late other found read same := by
    by_cases equal : other = call
    · subst other
      simp
    · simpa [equal] using isolated.late other found read same
  unused other free := by
    have distinct : other ≠ call := by
      intro equal
      subst equal
      rw [owner] at free
      contradiction
    simpa [distinct] using isolated.unused other free
  invalidations := isolated.invalidations

theorem Isolated.otherLate (isolated : Isolated key s t) {call : Nat} {record : GetCall I V}
    (owner : s.gets call = some record) (foreign : record.key ≠ key) (value : Option V) :
    Isolated key {s with late := Function.update s.late call value} t where
  world := isolated.world
  gets := isolated.gets
  late other found read same := by
    have distinct : other ≠ call := by
      intro equal
      subst equal
      obtain rfl := Option.some.inj (owner.symm.trans read)
      exact foreign same
    simpa [distinct] using isolated.late other found read same
  unused other free := by
    have distinct : other ≠ call := by
      intro equal
      subst equal
      rw [owner] at free
      contradiction
    simpa [distinct] using isolated.unused other free
  invalidations := isolated.invalidations

theorem Isolated.setInvalidations (isolated : Isolated key s t) (call : Nat) {pc twin : InvalidatePc}
    (twins : Twin key (some pc) (some twin)) :
    Isolated key (s.setInvalidation call pc) (t.setInvalidation call twin) where
  world := isolated.world
  gets := isolated.gets
  late := isolated.late
  unused := isolated.unused
  invalidations other := by
    by_cases same : other = call
    · subst other
      simpa [State.setInvalidation] using twins
    · simpa [State.setInvalidation,same] using isolated.invalidations other

theorem Isolated.otherInvalidation (isolated : Isolated key s t) (call : Nat) {pc : InvalidatePc}
    (twins : Twin key (some pc) (t.invalidations call)) :
    Isolated key (s.setInvalidation call pc) t where
  world := isolated.world
  gets := isolated.gets
  late := isolated.late
  unused := isolated.unused
  invalidations other := by
    by_cases same : other = call
    · subst other
      simpa [State.setInvalidation] using twins
    · simpa [State.setInvalidation,same] using isolated.invalidations other

/-- The twin of an invalidation owes no key that it does not owe itself. -/
theorem Isolated.enabled (isolated : Isolated key s t) {event : Event I V} (enabled : Enabled s event) :
    Enabled t event := by
  cases event with
  | scan call ok cursor keys =>
    refine ⟨enabled.1,fun done last previous fewer there stored owes => ?_⟩
    have twins := isolated.invalidations call
    rw [there] at twins
    generalize here : s.invalidations call = pc at twins
    cases twins with
    | scan _ owed _ less => exact enabled.2 done last previous owed here stored (less stored owes)
  | _ => trivial

end Calls

section Twins

variable {key : String}

theorem Twin.unused {twin : Option InvalidatePc} (twins : Twin key none twin) : twin = none := by
  cases twins
  rfl

/-- An invalidation that cannot touch the key may end without its twin. -/
theorem Twin.ends {pc twin : Option InvalidatePc} (twins : Twin key pc twin)
    (foreign : ∀ here, pc = some here → ¬here.Concerns key) : Twin key (some .resolved) twin := by
  cases twins with
  | absent => exact .done
  | other deleted distinct => exact .done
  | done => exact .done
  | resolved => exact .resolved
  | delete => exact absurd rfl (foreign _ rfl)
  | scan cursor owed fewer less => exact absurd trivial (foreign _ rfl)
  | del keys cursor owed fewer less => exact absurd trivial (foreign _ rfl)

theorem Twin.afterPage (cursor : String) {owed fewer : String → Prop}
    (less : ∀ stored, fewer stored → owed stored) :
    Twin key (some (SystemConfig.afterPage cursor owed)) (some (SystemConfig.afterPage cursor fewer)) := by
  unfold SystemConfig.afterPage
  split
  · exact .resolved
  · exact .scan cursor owed fewer less

end Twins

section Step

variable [DecidableEq I] {json : JsonCodec V} {ttlMs : Nat} {key : String} {s t u : State I V}
  {event : Event I V}

/-- An event that is not about the key changes nothing that is seen of it. -/
theorem Isolated.leftOut (isolated : Isolated key s t) (foreign : ¬Concerns key s event)
    (move : Move json ttlMs s event u) : Isolated key u t := by
  cases move with
  | idle => exact isolated
  | tick ms => exact absurd trivial foreign
  | updateRow other value | deleteRow other =>
    have distinct : key ≠ other := fun same => foreign same.symm
    exact isolated.withWorld
      (isolated.world.elsewhere rfl (Function.update_of_ne distinct ..) rfl (fun _ => rfl))
  | evict stored =>
    have distinct : redisKey key ≠ stored := fun same => foreign same.symm
    exact isolated.withWorld
      (isolated.world.elsewhere rfl rfl (erase_other _ distinct) (fun _ => rfl))
  | memoryHit call service other defaultValue entry unused found alive =>
    have distinct : other ≠ key := fun same => foreign ⟨unused,same⟩
    exact isolated.otherCall call _ distinct (by simp [unused])
  | memoryMiss call service other defaultValue unused expired =>
    have distinct : other ≠ key := fun same => foreign ⟨unused,same⟩
    have moved := isolated.otherCall call ⟨service,other,defaultValue,[],.getFromRedis⟩
      distinct (by simp [unused])
    refine moved.withWorld (isolated.world.elsewhere rfl rfl rfl (fun owner => ?_))
    apply setMemory_other
    intro same
    subst same
    exact erase_other _ (Ne.symm distinct)
  | redisHit call service other defaultValue reads raw value waiting
  | redisMiss call ok service other defaultValue reads waiting
  | rowFound call service other defaultValue reads value waiting
  | rowMissing call ok service other defaultValue reads waiting =>
    have distinct : other ≠ key := fun same => foreign ⟨_,waiting,same⟩
    exact isolated.otherCall call _ distinct (by simp [waiting,distinct])
  | redisSetOk call service other defaultValue reads value waiting =>
    have distinct : other ≠ key := fun same => foreign ⟨_,waiting,same⟩
    have apart : redisKey key ≠ redisKey other := fun same => distinct (redisKey_injective same).symm
    have moved := isolated.otherCall call
      ⟨service,other,defaultValue,reads,.setInMemory value⟩ distinct
      (by simp [waiting,distinct])
    exact moved.withWorld
      (isolated.world.elsewhere rfl rfl (put_other _ _ apart) (fun _ => rfl))
  | redisSetFailed call service other defaultValue reads value waiting =>
    have distinct : other ≠ key := fun same => foreign ⟨_,waiting,same⟩
    have moved := isolated.otherCall call
      ⟨service,other,defaultValue,reads,.setInMemory value⟩ distinct
      (by simp [waiting,distinct])
    exact moved.otherLate (Function.update_self ..) distinct (some value)
  | lateSet call record value owner pending =>
    have distinct : record.key ≠ key := fun same => foreign ⟨_,owner,same⟩
    have apart : redisKey key ≠ redisKey record.key :=
      fun same => distinct (redisKey_injective same).symm
    have moved := isolated.otherLate owner distinct none
    exact moved.withWorld
      (isolated.world.elsewhere rfl rfl (put_other _ _ apart) (fun _ => rfl))
  | store call service other defaultValue reads value waiting =>
    have distinct : other ≠ key := fun same => foreign ⟨_,waiting,same⟩
    have moved := isolated.otherCall call
      ⟨service,other,defaultValue,reads,.returned (.stored value) s.now⟩ distinct
      (by simp [waiting,distinct])
    refine moved.withWorld (isolated.world.elsewhere rfl rfl rfl (fun owner => ?_))
    apply setMemory_other
    intro same
    subst same
    exact put_other _ _ (Ne.symm distinct)
  | invalidate call service argument unused =>
    have spared : ¬Covers argument key := fun covers => foreign ⟨unused,covers⟩
    have twin : t.invalidations call = none := (unused ▸ isolated.invalidations call).unused
    refine (isolated.otherInvalidation call ?_).withWorld
      (isolated.world.elsewhere rfl rfl rfl (fun owner => ?_))
    · cases single : singleKey argument with
      | none => exact absurd (Or.inl single) spared
      | some other =>
        rw [twin]
        exact .other other (fun same => spared (Or.inr (same ▸ single)))
    · apply setMemory_other
      intro same
      subst same
      exact invalidateMemory_other _ spared
  | delKey call other waiting =>
    have distinct : redisKey key ≠ redisKey other :=
      fun same => foreign ⟨_,waiting,(redisKey_injective same).symm⟩
    have moved := isolated.otherInvalidation call ((isolated.invalidations call).ends
      (fun here found concerns => foreign ⟨here,found,concerns⟩))
    exact moved.withWorld
      (isolated.world.elsewhere rfl rfl (erase_other _ distinct) (fun _ => rfl))
  | delFailed call | scanFailed call cursor keys =>
    exact isolated.otherInvalidation call ((isolated.invalidations call).ends
      (fun here found concerns => foreign ⟨here,found,concerns⟩))
  | delPage call keys cursor owed waiting | emptyPage call previous cursor owed waiting
  | page call previous cursor keys owed waiting | missingScan call cursor owed waiting
  | missingDel call keys cursor owed waiting => exact absurd ⟨_,waiting,trivial⟩ foreign

theorem OnlyAt.getFromMemory_eq {w v : World I V} (only : OnlyAt key w v) (service : I) :
    (getFromMemory (v.memory service) v.now key).1 = (getFromMemory (w.memory service) w.now key).1 ∧
      OnlyAt key (w.setMemory service (getFromMemory (w.memory service) w.now key).2)
        (v.setMemory service (getFromMemory (v.memory service) v.now key).2) := by
  unfold getFromMemory
  rw [only.memory service,only.now]
  cases found : w.memory service key with
  | none => exact ⟨rfl,only.setMemory service (only.memory service) (fun _ _ absent => absent)⟩
  | some entry =>
    by_cases expired : entry.expiresAt < w.now
    · simp only [expired,if_true,true_and]
      refine only.setMemory service ?_ (fun other distinct absent => ?_)
      · rw [erase_same,erase_same]
      · rw [erase_other _ distinct,absent]
    · simp only [expired,if_false,true_and]
      exact only.setMemory service (only.memory service) (fun _ _ absent => absent)

theorem Isolated.beginGet (isolated : Isolated key s t) (call : Nat) (service : I) (defaultValue : V)
    (unused : s.gets call = none) : Isolated key (SystemConfig.beginGet s call service key defaultValue)
      (SystemConfig.beginGet t call service key defaultValue) := by
  obtain ⟨hits,world⟩ := isolated.world.getFromMemory_eq service
  unfold SystemConfig.beginGet
  cases first : getFromMemory (s.memory service) s.now key with
  | mk hit memory =>
  cases second : getFromMemory (t.memory service) t.now key with
  | mk twinHit twinMemory =>
  rw [first,second] at hits world
  obtain rfl : twinHit = hit := hits
  have clock : t.now = s.now := isolated.world.now
  simp only [clock]
  cases twinHit with
  | none =>
    exact (isolated.ownCall call ⟨service,key,defaultValue,[],.getFromRedis⟩ rfl
      (by simp [unused])).withWorlds world
  | some value =>
    exact (isolated.ownCall call ⟨service,key,defaultValue,[],.returned (.stored value) s.now⟩
      rfl (by simp [unused])).withWorlds world

section Calls

variable {call : Nat} {service : I} {defaultValue : V} {reads : List Nat}

theorem Isolated.redisGet (isolated : Isolated key s t) (ok : Bool) (mine : CallFor key s call) :
    Isolated key (next json ttlMs s (.redisGet call ok)) (next json ttlMs t (.redisGet call ok)) := by
  obtain ⟨⟨service,other,defaultValue,reads,pc⟩,found,named⟩ := mine
  obtain rfl : other = key := named
  have there := isolated.call found rfl
  simp only [next,found,there]
  cases pc with
  | getFromRedis =>
    simp only [isolated.world.redisReply_eq,isolated.world.now]
    exact isolated.ownCall call _ rfl (by simp [found])
  | _ => exact isolated

theorem Isolated.findByKey (isolated : Isolated key s t) (ok : Bool) (mine : CallFor key s call) :
    Isolated key (next json ttlMs s (.findByKey call ok)) (next json ttlMs t (.findByKey call ok)) := by
  obtain ⟨⟨service,other,defaultValue,reads,pc⟩,found,named⟩ := mine
  obtain rfl : other = key := named
  have there := isolated.call found rfl
  simp only [next,found,there]
  cases pc with
  | findByKey =>
    simp only [isolated.world.findByKey_eq,isolated.world.now]
    exact isolated.ownCall call _ rfl (by simp [found])
  | _ => exact isolated

theorem Isolated.redisSet (isolated : Isolated key s t) (ok : Bool) (mine : CallFor key s call) :
    Isolated key (next json ttlMs s (.redisSet call ok)) (next json ttlMs t (.redisSet call ok)) := by
  obtain ⟨⟨service,other,defaultValue,reads,pc⟩,found,named⟩ := mine
  obtain rfl : other = key := named
  have there := isolated.call found rfl
  simp only [next,found,there]
  cases pc with
  | setInRedis value =>
    have moved := isolated.ownCall call
      ⟨service,other,defaultValue,reads,.setInMemory value⟩ rfl (by simp [found])
    cases ok with
    | true => exact moved.withWorlds (isolated.world.storeInRedis json ttlMs value)
    | false => exact moved.ownLate (Function.update_self ..) (some value)
  | _ => exact isolated

theorem Isolated.lateSet (isolated : Isolated key s t) (mine : CallFor key s call) :
    Isolated key (next json ttlMs s (.lateSet call)) (next json ttlMs t (.lateSet call)) := by
  obtain ⟨record,found,named⟩ := mine
  have there := isolated.call found named
  have same := isolated.late call record found named
  subst named
  simp only [next,found,there,same]
  cases pending : s.late call with
  | none => exact isolated
  | some value =>
    exact (isolated.ownLate found none).withWorlds (isolated.world.storeInRedis json ttlMs value)

theorem Isolated.setInMemory (isolated : Isolated key s t) (mine : CallFor key s call) :
    Isolated key (next json ttlMs s (.setInMemory call)) (next json ttlMs t (.setInMemory call)) := by
  obtain ⟨⟨service,other,defaultValue,reads,pc⟩,found,named⟩ := mine
  obtain rfl : other = key := named
  have there := isolated.call found rfl
  simp only [next,found,there]
  cases pc with
  | setInMemory value =>
    have moved := isolated.ownCall call
      ⟨service,other,defaultValue,reads,.returned (.stored value) s.now⟩ rfl (by simp [found])
    have clock : t.now = s.now := isolated.world.now
    rw [clock]
    exact moved.withWorlds (isolated.world.storeInMemory ttlMs service value)
  | _ => exact isolated

end Calls

section Invalidations

variable {call : Nat}

theorem Isolated.invalidate (isolated : Isolated key s t) (service : I) {argument : Option String}
    (unused : s.invalidations call = none) (covers : Covers argument key) :
    Isolated key (next json ttlMs s (.invalidate call service argument))
      (next json ttlMs t (.invalidate call service argument)) := by
  have twin : t.invalidations call = none := (unused ▸ isolated.invalidations call).unused
  have world : OnlyAt key
      (s.toWorld.setMemory service (invalidateMemory (s.memory service) argument))
      (t.toWorld.setMemory service (invalidateMemory (t.memory service) argument)) := by
    refine isolated.world.setMemory service ?_ (fun other distinct absent => ?_)
    · rw [invalidateMemory_covers _ covers,invalidateMemory_covers _ covers]
    · cases found : invalidateMemory (t.memory service) argument other with
      | none => rfl
      | some entry =>
        rw [invalidateMemory_some found] at absent
        contradiction
  simp only [next,unused,twin]
  rcases covers with all | one
  · simp only [all]
    exact (isolated.setInvalidations call
      (.scan "0" InNamespace InNamespace (fun _ named => named))).withWorlds world
  · simp only [one]
    exact (isolated.setInvalidations call .delete).withWorlds world

theorem Isolated.redisDel (isolated : Isolated key s t) (ok : Bool)
    (mine : ∃ pc, s.invalidations call = some pc ∧ pc.Concerns key) :
    Isolated key (next json ttlMs s (.redisDel call ok)) (next json ttlMs t (.redisDel call ok)) := by
  obtain ⟨pc,found,concerns⟩ := mine
  have twins := isolated.invalidations call
  rw [found] at twins
  simp only [next,found]
  generalize there : t.invalidations call = twin at twins
  cases twins with
  | other deleted distinct => exact absurd concerns distinct
  | done | resolved => exact concerns.elim
  | delete =>
    have moved := isolated.setInvalidations call .resolved
    cases ok with
    | true =>
      refine moved.withWorlds (isolated.world.setRedis ?_ (fun stored distinct absent => ?_))
      · simp [deleteFromRedis]
      · simpa [deleteFromRedis,distinct] using absent
    | false => exact moved
  | scan cursor owed fewer less => exact isolated
  | del keys cursor owed fewer less =>
    cases ok with
    | true =>
      refine (isolated.setInvalidations call (Twin.afterPage cursor less)).withWorlds
        (isolated.world.setRedis ?_ (fun stored distinct absent => ?_))
      · simp [eraseAll,isolated.world.redis]
      · simp [eraseAll,absent]
    | false => exact isolated.setInvalidations call .resolved

theorem Isolated.scan (isolated : Isolated key s t) (ok : Bool) (cursor : String) (keys : List String)
    (mine : ∃ pc, s.invalidations call = some pc ∧ pc.Concerns key) :
    Isolated key (next json ttlMs s (.scan call ok cursor keys))
      (next json ttlMs t (.scan call ok cursor keys)) := by
  obtain ⟨pc,found,concerns⟩ := mine
  have twins := isolated.invalidations call
  rw [found] at twins
  simp only [next,found]
  generalize there : t.invalidations call = twin at twins
  cases twins with
  | other deleted distinct => exact absurd concerns distinct
  | done | resolved => exact concerns.elim
  | delete | del => exact isolated
  | scan previous owed fewer less =>
    cases ok with
    | true =>
      cases keys with
      | nil => exact isolated.setInvalidations call (Twin.afterPage cursor less)
      | cons first rest =>
        exact isolated.setInvalidations call
          (.del (first :: rest) cursor _ _ (fun stored kept => ⟨less stored kept.1,kept.2⟩))
    | false => exact isolated.setInvalidations call .resolved

theorem Isolated.missing (isolated : Isolated key s t)
    (mine : ∃ pc, s.invalidations call = some pc ∧ pc.Concerns key) :
    Isolated key (next json ttlMs s (.missing call)) (next json ttlMs t (.missing call)) := by
  obtain ⟨pc,found,concerns⟩ := mine
  have twins := isolated.invalidations call
  rw [found] at twins
  simp only [next,found]
  generalize there : t.invalidations call = twin at twins
  cases twins with
  | other deleted distinct => exact absurd concerns distinct
  | done | resolved => exact concerns.elim
  | delete => exact isolated
  | scan cursor owed fewer less =>
    exact isolated.setInvalidations call (.scan cursor _ _
      (fun stored kept => ⟨less stored kept.1,isolated.world.live_of kept.2⟩))
  | del keys cursor owed fewer less =>
    exact isolated.setInvalidations call (.del keys cursor _ _
      (fun stored kept => ⟨less stored kept.1,isolated.world.live_of kept.2⟩))

end Invalidations

theorem Isolated.repeated (isolated : Isolated key s t) (concerns : Concerns key s event) :
    Isolated key (next json ttlMs s event) (next json ttlMs t event) := by
  cases event with
  | tick ms =>
    have clock : t.now = s.now := isolated.world.now
    exact isolated.withWorlds {isolated.world with now := congrArg (· + ms) clock}
  | updateRow other value =>
    obtain rfl : other = key := concerns
    exact isolated.withWorlds (isolated.world.setRow (some value))
  | deleteRow other =>
    obtain rfl : other = key := concerns
    exact isolated.withWorlds (isolated.world.setRow none)
  | evict stored =>
    obtain rfl : stored = redisKey key := concerns
    refine isolated.withWorlds (isolated.world.setRedis ?_ (fun other distinct absent => ?_))
    · rw [erase_same,erase_same]
    · rw [erase_other _ distinct,absent]
  | get call service other defaultValue =>
    obtain ⟨unused,rfl⟩ := concerns
    simp only [next,unused,isolated.toSeenAt.unused unused]
    exact isolated.beginGet call service defaultValue unused
  | redisGet call ok => exact isolated.redisGet ok concerns
  | findByKey call ok => exact isolated.findByKey ok concerns
  | redisSet call ok => exact isolated.redisSet ok concerns
  | lateSet call => exact isolated.lateSet concerns
  | setInMemory call => exact isolated.setInMemory concerns
  | invalidate call service argument => exact isolated.invalidate service concerns.1 concerns.2
  | redisDel call ok => exact isolated.redisDel ok concerns
  | scan call ok cursor keys => exact isolated.scan ok cursor keys concerns
  | missing call => exact isolated.missing concerns

theorem isolated_follows (json : JsonCodec V) (ttlSeconds : Option String) (key : String) :
    Follows (machine (I := I) json ttlSeconds) (machine json ttlSeconds) (Isolated key) (Repeats key) where
  step s t event isolated enabled := by
    by_cases concerns : Concerns key s event
    · exact ⟨[event],Or.inl ⟨concerns,rfl⟩,⟨isolated.enabled enabled,trivial⟩,isolated.repeated concerns⟩
    · exact ⟨[],Or.inr ⟨concerns,rfl⟩,trivial,isolated.leftOut concerns (next_move json _ s event)⟩

end Step

/-- The start of a run with no other row than that of the key. -/
def onlyRow (key : String) (s : State I V) : State I V :=
  {s with db := fun other => if other = key then s.db key else none}

theorem onlyRow_isolated {s : State I V} (initial : Initial s) (key : String) :
    Isolated key s (onlyRow key s) where
  world := by
    refine ⟨rfl,by simp [onlyRow],rfl,fun _ => rfl,fun other distinct => ?_,fun stored _ => ?_,
      fun service other _ => ?_⟩
    · simp [onlyRow,distinct]
    · exact initial.2.1 stored
    · exact initial.1 service other
  gets := by
    funext call
    have unused : s.gets call = none := initial.2.2.1 call
    simp [onlyRow,callsFor,unused]
  late _ _ _ _ := rfl
  unused call _ := ⟨initial.2.2.2.1 call,initial.2.2.2.1 call⟩
  invalidations call := by
    have unused : s.invalidations call = none := initial.2.2.2.2 call
    simp only [onlyRow,unused]
    exact .absent

/-- Whatever is done about other keys, the calls of one key go as in the run that keeps only
the events about this key, where no other key has a row, an entry or a call. -/
theorem key_isolated [DecidableEq I] {json : JsonCodec V} {ttlSeconds : Option String}
    (run : Run (machine (I := I) json ttlSeconds)) (key : String) :
    ∃ (alone : Run (machine (I := I) json ttlSeconds)) (position : Nat → Nat),
      alone.start = onlyRow key run.start ∧ alone.events.Sublist run.events ∧ Monotone position ∧
        ∀ i, SeenAt key (run.state i) (alone.state (position i)) := by
  have isolated := onlyRow_isolated run.init_state key
  have starts : (machine (I := I) json ttlSeconds).init (onlyRow key run.start) := by
    obtain ⟨memory,redis,rest⟩ := run.init_state
    exact ⟨memory,redis,rest⟩
  obtain ⟨alone,blocks,start,followed⟩ :=
    (isolated_follows json ttlSeconds key).run run starts isolated
  refine ⟨alone,ends blocks,start,followed.sublist ?_,ends_monotone blocks,
    fun i => (followed.related i).toSeenAt⟩
  intro s event t block repeats
  rcases repeats with ⟨_,rfl⟩ | ⟨_,rfl⟩
  · exact List.Sublist.refl _
  · exact List.nil_sublist _

end TribeHub.SystemConfig
