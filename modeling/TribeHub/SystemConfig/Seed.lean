import TribeHub.Library.UniqueTable
import TribeHub.Library.Transition
import TribeHub.Auth.Logout
import Mathlib.Data.List.Nodup

/-! The seed script on the system_configs table. Its upserts are single statements, so several
seed processes may run at once, next to operators who edit the table. -/
namespace TribeHub.SystemConfig
open UniqueTable Transition
open Auth (Json)

structure SystemConfigRecord where
  id : String
  key : String
  value : Json
  valueType : Option String
  createdAt : Nat
  updatedAt : Nat

def systemConfigKey : Index SystemConfigRecord String := fun record => some record.key

def systemConfigsIndexes : List (Index SystemConfigRecord String) :=
  [fun record => some record.id,systemConfigKey]

theorem systemConfigKey_listed : systemConfigKey ∈ systemConfigsIndexes := by
  simp [systemConfigsIndexes]

abbrev SystemConfigsTable := Table systemConfigsIndexes

def findByKey (configs : SystemConfigsTable) (key : String) : Option SystemConfigRecord :=
  find configs systemConfigKey key

structure Flag where
  key : String
  value : Json
  valueType : String

def flags : List Flag := [
  ⟨"feature.feed.enabled",.boolean true,"boolean"⟩,
  ⟨"feature.search.enabled",.boolean true,"boolean"⟩,
  ⟨"feature.reactions.enabled",.boolean true,"boolean"⟩,
  ⟨"config.search.rateLimit",.number (.finite 30),"number"⟩]

theorem flags_keyed {first second : Flag} (one : first ∈ flags) (two : second ∈ flags)
    (same : first.key = second.key) : first = second := by
  have keys : (flags.map Flag.key).Nodup := by decide
  exact List.inj_on_of_nodup_map keys one two same

def Flag.create (flag : Flag) (id : String) (now : Nat) : SystemConfigRecord :=
  ⟨id,flag.key,flag.value,some flag.valueType,now,now⟩

def SystemConfigRecord.edit (value : Json) (valueType : Option String) (now : Nat)
    (record : SystemConfigRecord) : SystemConfigRecord :=
  {record with value := value, valueType := valueType, updatedAt := now}

def Flag.update (flag : Flag) (now : Nat) : SystemConfigRecord → SystemConfigRecord :=
  SystemConfigRecord.edit flag.value (some flag.valueType) now

theorem SystemConfigRecord.edit_indexed (value : Json) (valueType : Option String) (now : Nat)
    (index : Index SystemConfigRecord String) (listed : index ∈ systemConfigsIndexes)
    (record : SystemConfigRecord) : index (record.edit value valueType now) = index record := by
  simp only [systemConfigsIndexes,List.mem_cons,List.not_mem_nil,or_false] at listed
  rcases listed with rfl | rfl <;> rfl

def editRow (configs : SystemConfigsTable) (key : String) (value : Json) (valueType : Option String)
    (now : Nat) : SystemConfigsTable :=
  revise configs systemConfigKey key (SystemConfigRecord.edit value valueType now)
    (SystemConfigRecord.edit_indexed value valueType now)

/-- The `upsert` of one flag; it is refused where the new id is taken. -/
def upsertFlag (configs : SystemConfigsTable) (flag : Flag) (id : String) (now : Nat) :
    Option SystemConfigsTable :=
  upsert configs systemConfigKey flag.key (flag.create id now) (flag.update now)
    (SystemConfigRecord.edit_indexed flag.value (some flag.valueType) now)

theorem findByKey_upsertFlag {configs upserted : SystemConfigsTable} {flag : Flag} {id : String}
    {now : Nat} (done : upsertFlag configs flag id now = some upserted) (key : String) :
    findByKey upserted key = if key = flag.key then
      some ((findByKey configs flag.key).elim (flag.create id now) (flag.update now))
    else findByKey configs key :=
  find_upsert done systemConfigKey_listed rfl

/-- Where a seed process stands in the loop of `main`. A statement may reach the table after
the process that sent it has failed. -/
inductive SeedPc where
  | upsert (flag : Flag) (rest : List Flag) (executed : Bool)
  | seeded
  | failed (flag : Flag) (executed : Bool)

def seedFrom : List Flag → SeedPc
  | [] => .seeded
  | flag :: rest => .upsert flag rest false

/-- The statement that was sent and has not reached the table. -/
def SeedPc.sent : SeedPc → Option Flag
  | .upsert flag _ false => some flag
  | .failed flag false => some flag
  | _ => none

def SeedPc.reached : SeedPc → SeedPc
  | .upsert flag rest _ => .upsert flag rest true
  | .seeded => .seeded
  | .failed flag _ => .failed flag true

structure SeedState where
  configs : SystemConfigsTable
  seeds : Nat → Option SeedPc

inductive SeedEvent where
  | main (seed : Nat)
  | upsert (seed : Nat) (id : String) (now : Nat)
  | resolve (seed : Nat)
  | reject (seed : Nat)
  | insertRow (record : SystemConfigRecord)
  | updateRow (key : String) (value : Json) (valueType : Option String) (now : Nat)
  | deleteRow (key : String)

def SeedState.setSeed (s : SeedState) (seed : Nat) (pc : SeedPc) : SeedState :=
  {s with seeds := Function.update s.seeds seed (some pc)}

theorem SeedState.setSeed_seeds {s : SeedState} {seed other : Nat} {pc found : SeedPc}
    (read : (s.setSeed seed pc).seeds other = some found) :
    other = seed ∧ found = pc ∨ s.seeds other = some found := by
  by_cases same : other = seed
  · subst same
    simp only [setSeed,Function.update_self] at read
    exact Or.inl ⟨rfl,(Option.some.inj read).symm⟩
  · simp only [setSeed,Function.update_of_ne same] at read
    exact Or.inr read

def seedNext (s : SeedState) : SeedEvent → SeedState
  | .main seed => s.setSeed seed (seedFrom flags)
  | .upsert seed id now =>
    match s.seeds seed with
    | none => s
    | some pc =>
      match pc.sent.bind (fun flag => upsertFlag s.configs flag id now) with
      | none => s
      | some configs => {s.setSeed seed pc.reached with configs := configs}
  | .resolve seed =>
    match s.seeds seed with
    | some (.upsert _ rest true) => s.setSeed seed (seedFrom rest)
    | _ => s
  | .reject seed =>
    match s.seeds seed with
    | some (.upsert flag _ executed) => s.setSeed seed (.failed flag executed)
    | _ => s
  | .insertRow record =>
    match insert s.configs record with
    | none => s
    | some configs => {s with configs := configs}
  | .updateRow key value valueType now =>
    {s with configs := editRow s.configs key value valueType now}
  | .deleteRow key => {s with configs := remove s.configs systemConfigKey key}

/-- A statement that the table refuses is a rejection without effect. -/
def SeedEnabled (s : SeedState) : SeedEvent → Prop
  | .main seed => s.seeds seed = none
  | .upsert seed id now => ∃ pc flag, s.seeds seed = some pc ∧ pc.sent = some flag ∧
      (upsertFlag s.configs flag id now).isSome
  | .resolve seed => ∃ flag rest, s.seeds seed = some (.upsert flag rest true)
  | .reject seed => ∃ flag rest executed, s.seeds seed = some (.upsert flag rest executed)
  | .insertRow record => (insert s.configs record).isSome
  | .updateRow .. | .deleteRow _ => True

def seedMachine : Machine SeedState SeedEvent where
  init s := ∀ seed, s.seeds seed = none
  enabled := SeedEnabled
  next := seedNext

def Edits (key : String) : SeedEvent → Prop
  | .insertRow record => record.key = key
  | .updateRow edited _ _ _ => edited = key
  | .deleteRow deleted => deleted = key
  | _ => False

inductive SeedStep (s : SeedState) : SeedEvent → SeedState → Prop
  | main (seed) : SeedStep s (.main seed) (s.setSeed seed (seedFrom flags))
  | upsert (seed id now pc flag configs) (running : s.seeds seed = some pc)
      (sent : pc.sent = some flag) (done : upsertFlag s.configs flag id now = some configs) :
      SeedStep s (.upsert seed id now) {s.setSeed seed pc.reached with configs := configs}
  | resolve (seed flag rest) (running : s.seeds seed = some (.upsert flag rest true)) :
      SeedStep s (.resolve seed) (s.setSeed seed (seedFrom rest))
  | reject (seed flag rest executed) (running : s.seeds seed = some (.upsert flag rest executed)) :
      SeedStep s (.reject seed) (s.setSeed seed (.failed flag executed))
  | edit (event configs) (edits : ∃ key, Edits key event) (spares : ∀ key, ¬Edits key event →
        findByKey configs key = findByKey s.configs key) :
      SeedStep s event {s with configs := configs}

theorem seedNext_step {s : SeedState} {event : SeedEvent} (enabled : SeedEnabled s event) :
    SeedStep s event (seedNext s event) := by
  cases event with
  | main seed => exact .main seed
  | upsert seed id now =>
    obtain ⟨pc,flag,running,sent,accepted⟩ := enabled
    obtain ⟨configs,done⟩ := Option.isSome_iff_exists.mp accepted
    simp only [seedNext,running,sent,Option.bind_some,done]
    exact .upsert seed id now pc flag configs running sent done
  | resolve seed =>
    obtain ⟨flag,rest,running⟩ := enabled
    simp only [seedNext,running]
    exact .resolve seed flag rest running
  | reject seed =>
    obtain ⟨flag,rest,executed,running⟩ := enabled
    simp only [seedNext,running]
    exact .reject seed flag rest executed running
  | insertRow record =>
    obtain ⟨configs,inserted⟩ := Option.isSome_iff_exists.mp enabled
    simp only [seedNext,inserted]
    refine .edit _ configs ⟨_,rfl⟩ (fun key spared => ?_)
    have other : systemConfigKey record ≠ some key := fun same => spared (Option.some.inj same)
    exact (find_insert inserted systemConfigKey_listed).trans (if_neg other)
  | updateRow key value valueType now =>
    refine .edit _ _ ⟨_,rfl⟩ (fun other spared => ?_)
    exact (find_revise _ systemConfigKey_listed).trans (if_neg (Ne.symm spared))
  | deleteRow key =>
    refine .edit _ _ ⟨_,rfl⟩ (fun other spared => ?_)
    exact find_remove.trans (if_neg (Ne.symm spared))

theorem SeedStep.row {s t : SeedState} {event : SeedEvent} (step : SeedStep s event t) {key : String}
    (spared : ¬Edits key event) : findByKey t.configs key = findByKey s.configs key ∨
      ∃ seed id now pc flag, event = .upsert seed id now ∧ s.seeds seed = some pc ∧
        pc.sent = some flag ∧ flag.key = key ∧ findByKey t.configs key =
          some ((findByKey s.configs key).elim (flag.create id now) (flag.update now)) := by
  cases step with
  | upsert seed id now pc flag configs running sent done =>
    by_cases same : key = flag.key
    · subst same
      refine Or.inr ⟨seed,id,now,pc,flag,rfl,running,sent,rfl,?_⟩
      simpa using findByKey_upsertFlag done flag.key
    · exact Or.inl ((findByKey_upsertFlag done key).trans (if_neg same))
  | edit event configs _ spares => exact Or.inl (spares key spared)
  | _ => exact Or.inl rfl

section Runs

variable (run : Run seedMachine)

/-- The seed's own statement for the flag has reached the table. -/
def Reached (seed : Nat) (flag : Flag) (i : Nat) : Prop :=
  ∃ j < i, ∃ id now pc, run.Happens j (.upsert seed id now) ∧
    (run.state j).seeds seed = some pc ∧ pc.sent = some flag

/-- The flags before the current one have been seeded, in the order of the list. -/
inductive SeedProgress (seed i : Nat) : SeedPc → Prop
  | upsert (past flag rest executed) (order : flags = past ++ flag :: rest)
      (before : ∀ other ∈ past, Reached run seed other i)
      (now : executed = true → Reached run seed flag i) :
      SeedProgress seed i (.upsert flag rest executed)
  | seeded (all : ∀ flag ∈ flags, Reached run seed flag i) : SeedProgress seed i .seeded
  | failed (flag executed) (listed : flag ∈ flags) : SeedProgress seed i (.failed flag executed)

variable {run}

theorem Reached.later {seed i j : Nat} {flag : Flag} (reached : Reached run seed flag i) (order : i ≤ j) :
    Reached run seed flag j := by
  obtain ⟨position,before,rest⟩ := reached
  exact ⟨position,Nat.lt_of_lt_of_le before order,rest⟩

theorem SeedProgress.later {seed i j : Nat} {pc : SeedPc} (progress : SeedProgress run seed i pc)
    (order : i ≤ j) : SeedProgress run seed j pc := by
  cases progress with
  | upsert past flag rest executed split before now =>
    exact .upsert past flag rest executed split (fun other member => (before other member).later order)
      (fun done => (now done).later order)
  | seeded all => exact .seeded (fun flag listed => (all flag listed).later order)
  | failed flag executed listed => exact .failed flag executed listed

theorem SeedProgress.sent_listed {seed i : Nat} {pc : SeedPc} (progress : SeedProgress run seed i pc)
    {flag : Flag} (sent : pc.sent = some flag) : flag ∈ flags := by
  cases progress with
  | upsert past current rest executed order before now =>
    cases executed with
    | false =>
      obtain rfl := Option.some.inj sent
      rw [order]
      simp
    | true => cases sent
  | seeded all => cases sent
  | failed current executed listed =>
    cases executed with
    | false => exact Option.some.inj sent ▸ listed
    | true => cases sent

theorem seedFrom_progress {seed i : Nat} (past rest : List Flag) (order : flags = past ++ rest)
    (before : ∀ other ∈ past, Reached run seed other i) : SeedProgress run seed i (seedFrom rest) := by
  cases rest with
  | nil =>
    rw [List.append_nil] at order
    exact .seeded (order ▸ before)
  | cons flag rest => exact .upsert past flag rest false order before (fun done => by cases done)

theorem reached_progress {seed i : Nat} {pc : SeedPc} (progress : SeedProgress run seed i pc)
    {flag : Flag} (sent : pc.sent = some flag) (now : Reached run seed flag i) :
    SeedProgress run seed i pc.reached := by
  cases progress with
  | upsert past current rest executed order before _ =>
    cases executed with
    | false =>
      obtain rfl := Option.some.inj sent
      exact .upsert past current rest true order before (fun _ => now)
    | true => cases sent
  | seeded all => cases sent
  | failed current executed listed => exact .failed current true listed

theorem seed_progress (run : Run seedMachine) (i : Nat) : ∀ seed pc, (run.state i).seeds seed = some pc →
    SeedProgress run seed i pc := by
  apply run.induct_from 0 (fun i => ∀ seed pc, (run.state i).seeds seed = some pc →
    SeedProgress run seed i pc) ?_ ?_ ?_ i (Nat.zero_le i)
  · intro seed pc found
    rw [run.init_state seed] at found
    cases found
  · intro i _ _ same ih seed pc found
    rw [same] at found
    exact (ih seed pc found).later (Nat.le_succ i)
  · intro i event _ happens same ih seed pc found
    rw [same] at found
    have step : SeedStep (run.state i) event (seedMachine.next (run.state i) event) :=
      seedNext_step (run.enabled happens)
    have kept : ∀ old, (run.state i).seeds seed = some old → SeedProgress run seed (i+1) old :=
      fun old before => (ih seed old before).later (Nat.le_succ i)
    generalize seedMachine.next (run.state i) event = t at step found
    cases step with
    | main started =>
      rcases SeedState.setSeed_seeds found with ⟨rfl,rfl⟩ | before
      · exact seedFrom_progress [] flags rfl (by simp)
      · exact kept pc before
    | upsert sender id now old flag configs running sent done =>
      rcases SeedState.setSeed_seeds (s := run.state i) found with ⟨rfl,rfl⟩ | before
      · exact reached_progress (kept old running) sent
          ⟨i,Nat.lt_succ_self i,id,now,old,happens,running,sent⟩
      · exact kept pc before
    | resolve sender flag rest running =>
      rcases SeedState.setSeed_seeds found with ⟨rfl,rfl⟩ | before
      · cases kept _ running with
        | upsert past _ _ _ order before now =>
          refine seedFrom_progress (past ++ [flag]) rest (by simpa using order) ?_
          intro other member
          rcases List.mem_append.mp member with earlier | last
          · exact before other earlier
          · exact List.mem_singleton.mp last ▸ now rfl
      · exact kept pc before
    | reject sender flag rest executed running =>
      rcases SeedState.setSeed_seeds found with ⟨rfl,rfl⟩ | before
      · cases kept _ running with
        | upsert past _ _ _ order _ _ => exact .failed flag executed (by rw [order]; simp)
      · exact kept pc before
    | edit => exact kept pc found

/-- The row carries the flag, under the id and creation date of the row before, if any. -/
structure Carries (flag : Flag) (old : Option SystemConfigRecord) (record : SystemConfigRecord) :
    Prop where
  value : record.value = flag.value
  valueType : record.valueType = some flag.valueType
  kept : ∀ before, old = some before → record.id = before.id ∧ record.createdAt = before.createdAt

theorem carries_upsert (flag : Flag) (old : Option SystemConfigRecord) (id : String) (now : Nat) :
    Carries flag old (old.elim (flag.create id now) (flag.update now)) := by
  cases old with
  | none => exact ⟨rfl,rfl,by simp⟩
  | some before =>
    refine ⟨rfl,rfl,fun other same => ?_⟩
    obtain rfl := Option.some.inj same
    exact ⟨rfl,rfl⟩

theorem Carries.update {flag : Flag} {old : Option SystemConfigRecord} {record : SystemConfigRecord}
    (carries : Carries flag old record) (now : Nat) : Carries flag old (flag.update now record) :=
  ⟨rfl,rfl,carries.kept⟩

/-- What no edit of the key and no statement for it takes away from its row stays with it. -/
theorem row_run (run : Run seedMachine) {key : String} (P : Option SystemConfigRecord → Prop)
    (kept : ∀ flag ∈ flags, flag.key = key → ∀ row id now, P row →
      P (some (row.elim (flag.create id now) (flag.update now)))) {first : Nat}
    (start : P (findByKey (run.state first).configs key)) {last : Nat} (order : first ≤ last)
    (spared : ∀ k event, first ≤ k → k < last → run.Happens k event → ¬Edits key event) :
    P (findByKey (run.state last).configs key) := by
  induction last,order using Nat.le_induction with
  | base => exact start
  | succ last bound ih =>
    have before := ih (fun k event after before => spared k event after (by omega))
    rcases run.cases_at last with ⟨event,happens⟩ | idle
    · have step : SeedStep (run.state last) event (seedMachine.next (run.state last) event) :=
        seedNext_step (run.enabled happens)
      rw [run.state_succ happens]
      rcases step.row (spared last event bound (Nat.lt_succ_self last) happens) with
        same | ⟨seed,id,now,pc,flag,-,running,sent,keyed,written⟩
      · exact same ▸ before
      · rw [written]
        exact kept flag ((seed_progress run last seed pc running).sent_listed sent) keyed _ id now before
    · rw [run.state_idle idle]
      exact before

/-- Once a seed process is through, each flag's row carries the flag from the moment its statement
reached the table until an operator edits that row. -/
theorem seed_settles {seed i : Nat} (seeded : (run.state i).seeds seed = some .seeded) {flag : Flag}
    (listed : flag ∈ flags) : ∃ first < i, (∃ id now, run.Happens first (.upsert seed id now)) ∧
      ∀ last, first < last →
        (∀ k event, first < k → k < last → run.Happens k event → ¬Edits flag.key event) →
        ∃ record, findByKey (run.state last).configs flag.key = some record ∧
          Carries flag (findByKey (run.state first).configs flag.key) record := by
  cases seed_progress run i seed .seeded seeded with
  | seeded all =>
    obtain ⟨first,before,id,now,pc,happens,running,sent⟩ := all flag listed
    refine ⟨first,before,⟨id,now,happens⟩,fun last after spared => ?_⟩
    refine row_run run (fun row => ∃ record, row = some record ∧ Carries flag _ record) ?_ ?_ after
      (fun k event later => spared k event later)
    · rintro other listed' same _ id now ⟨record,rfl,carries⟩
      obtain rfl := flags_keyed listed' listed same
      exact ⟨_,rfl,carries.update now⟩
    have step : SeedStep (run.state first) (.upsert seed id now)
        (seedMachine.next (run.state first) (.upsert seed id now)) :=
      seedNext_step (run.enabled happens)
    rw [run.state_succ happens]
    generalize seedMachine.next (run.state first) (.upsert seed id now) = t at step
    cases step with
    | upsert _ _ _ sender statement configs started posted done =>
      obtain rfl := Option.some.inj (running.symm.trans started)
      obtain rfl := Option.some.inj (sent.symm.trans posted)
      have written := findByKey_upsertFlag done flag.key
      rw [if_pos rfl] at written
      exact ⟨_,written,carries_upsert flag _ id now⟩
    | edit _ _ edits _ => exact absurd edits (by simp [Edits])

theorem unlisted_spared {key : String} (unlisted : ∀ flag ∈ flags, flag.key ≠ key) {first last : Nat}
    (order : first ≤ last)
    (spared : ∀ k event, first ≤ k → k < last → run.Happens k event → ¬Edits key event) :
    findByKey (run.state last).configs key = findByKey (run.state first).configs key :=
  row_run run (fun row => row = findByKey (run.state first).configs key)
    (fun flag listed same => absurd same (unlisted flag listed)) rfl order spared

end Runs

/-- An operator had set the rate limit. The first process fails after its first statement; the
second one goes through, and a late statement of the first comes last. -/
def reseeded : Run seedMachine where
  start := ⟨⟨[⟨"row","config.search.rateLimit",.number (.finite 100),none,0,0⟩],
    List.pairwise_singleton _ _⟩,fun _ => none⟩
  events := [.main 0,.upsert 0 "feed" 1,.resolve 0,.reject 0,.main 1,.upsert 1 "again" 2,.resolve 1,
    .upsert 1 "search" 3,.resolve 1,.upsert 1 "reactions" 4,.resolve 1,.upsert 1 "limit" 5,
    .resolve 1,.upsert 0 "late" 6]
  starts _ := rfl
  legal := by
    refine ⟨rfl,⟨_,_,rfl,rfl,?_⟩,⟨_,_,rfl⟩,⟨_,_,_,rfl⟩,rfl,⟨_,_,rfl,rfl,?_⟩,⟨_,_,rfl⟩,⟨_,_,rfl,rfl,?_⟩,
      ⟨_,_,rfl⟩,⟨_,_,rfl,rfl,?_⟩,⟨_,_,rfl⟩,⟨_,_,rfl,rfl,?_⟩,⟨_,_,rfl⟩,⟨_,_,rfl,rfl,?_⟩,trivial⟩
    all_goals rfl

theorem rateLimit_reseeded : ∃ first < 13, (∃ id now, reseeded.Happens first (.upsert 1 id now)) ∧
    ∃ record, findByKey (reseeded.state 14).configs "config.search.rateLimit" = some record ∧
      Carries ⟨"config.search.rateLimit",.number (.finite 30),"number"⟩
        (findByKey (reseeded.state first).configs "config.search.rateLimit") record := by
  have seeded : (reseeded.state 13).seeds 1 = some .seeded := rfl
  have listed : ⟨"config.search.rateLimit",.number (.finite 30),"number"⟩ ∈ flags := by simp [flags]
  obtain ⟨first,before,sent,settled⟩ := seed_settles seeded listed
  have unedited : ∀ event ∈ reseeded.events, ¬Edits "config.search.rateLimit" event := by
    simp [reseeded,Edits]
  exact ⟨first,before,sent,settled 14 (by omega)
    (fun k event _ _ happens => unedited event (List.mem_of_getElem? happens))⟩

end TribeHub.SystemConfig
