import TribeHub.Auth.Logout
import TribeHub.SystemConfig.Staleness
import TribeHub.SystemConfig.WholeOperations

/-! Feature flags on top of the loader: `isEnabled`, and FeatureFlagGuard around its await.
Whatever the caches, their failures and the interleaving, the answer of the guard is the one
that the row of the flag gave at some recent moment. -/
namespace TribeHub.SystemConfig
open Expiring Transition
open Auth (Json)

variable {I V : Type}

def Result.value : Result V → V
  | .stored value => value
  | .defaultValue value => value

/-- SystemConfigService.isEnabled, behind its `get`. -/
def isEnabled : Json → Bool
  | .boolean value => value
  -- Accepts the strings that were stored by mistake.
  | .string "true" => true
  | .string "false" => false
  | value => value.truthy

structure Forbidden where
  code : String
  message : String
  flag : String
  deriving DecidableEq

def featureDisabled (flag : String) : Forbidden :=
  ⟨"FEATURE_DISABLED","This feature is currently disabled.",flag⟩

/-- The metadata of `@FeatureFlag()` on the handler, or else on its controller. -/
def getAllAndOverride (handler controller : Option String) : Option String := handler.or controller

/-- The flag that the guard looks up; an empty one counts as no decorator. -/
def flagKey (handler controller : Option String) : Option String :=
  (getAllAndOverride handler controller).filter (fun flag => flag ≠ "")

/-- What the guard makes of the settled `isEnabled`; `view` is the JSON that a stored value is. -/
def gateAnswer (view : V → Json) (flag : String) (result : Result V) : Except Forbidden Unit :=
  if isEnabled (view result.value) then .ok () else .error (featureDisabled flag)

/-- FeatureFlagGuard.canActivate as a whole operation; `enabled` is the default `true`. -/
def canActivate [DecidableEq I] (json : JsonCodec V) (ttlMs : Nat) (view : V → Json) (enabled : V)
    (w : World I V) (service : I) (handler controller : Option String) (replies : Replies) :
    Except Forbidden Unit × World I V :=
  match flagKey handler controller with
  | none => (.ok (),w)
  | some flag =>
    let (result,w) := get json ttlMs w service flag enabled replies
    (gateAnswer view flag result,w)

/-- Undisturbed, the steps of the guard's call decide as the whole guard does. -/
theorem canActivate_uninterrupted [DecidableEq I] (json : JsonCodec V) (ttlSeconds : Option String)
    (view : V → Json) (enabled : V) (s : State I V) (call : Nat) (service : I)
    (handler controller : Option String) (replies : Replies) (unused : s.gets call = none)
    {flag : String} (flagged : flagKey handler controller = some flag) :
    let t := final (machine json ttlSeconds) s [.get call service flag enabled,
      .redisGet call replies.redisGet,.findByKey call replies.findByKey,
      .redisSet call replies.redisSet,.setInMemory call]
    let guarded := canActivate json (cacheTtlMs ttlSeconds) view enabled s.toWorld service handler
      controller replies
    t.toWorld = guarded.2 ∧ ∃ record result, t.gets call = some record ∧
      record.pc = .returned result s.now ∧ gateAnswer view flag result = guarded.1 := by
  obtain ⟨world,record,found,returned⟩ :=
    uninterrupted_get json ttlSeconds s call service flag enabled replies unused
  simp only [canActivate,flagged]
  exact ⟨world,record,_,found,returned,rfl⟩

/-- A `get` of this key with this default, which is all that it may return unread. -/
structure Lookup (key : String) (defaultValue : V) (record : GetCall I V) : Prop where
  named : record.key = key
  defaults : record.defaultValue = defaultValue
  default_only : ∀ value time, record.pc = .returned (.defaultValue value) time → value = defaultValue

variable [DecidableEq I]

section Lookups

variable {json : JsonCodec V} {ttlSeconds : Option String}

theorem Lookup.step {ttlMs : Nat} {s t : State I V} {event : Event I V} {key : String}
    {defaultValue : V} {call : Nat} {old : GetCall I V} (lookup : Lookup key defaultValue old)
    (before : s.gets call = some old) (move : Move json ttlMs s event t) :
    ∃ record, t.gets call = some record ∧ Lookup key defaultValue record := by
  have moved {other : Nat} {record : GetCall I V}
      (own : ∀ found, s.gets other = some found → Lookup key defaultValue found →
        Lookup key defaultValue record) :
      ∃ after, (s.setGet other record).gets call = some after ∧ Lookup key defaultValue after := by
    by_cases same : call = other
    · subst same
      exact ⟨record,Function.update_self ..,own old before lookup⟩
    · exact ⟨old,by simpa [State.setGet,same] using before,lookup⟩
  cases move with
  | memoryHit other _ _ _ _ unused | memoryMiss other _ _ _ unused =>
    refine moved (fun found read _ => ?_)
    rw [unused] at read
    contradiction
  | redisHit _ _ _ _ _ _ _ waiting | redisMiss _ _ _ _ _ _ waiting | rowFound _ _ _ _ _ _ waiting
  | redisSetOk _ _ _ _ _ _ waiting | redisSetFailed _ _ _ _ _ _ waiting
  | store _ _ _ _ _ _ waiting =>
    refine moved (fun found read held => ?_)
    obtain rfl := Option.some.inj (read.symm.trans waiting)
    exact ⟨held.named,held.defaults,by simp⟩
  | rowMissing _ _ _ _ _ _ waiting =>
    refine moved (fun found read held => ?_)
    obtain rfl := Option.some.inj (read.symm.trans waiting)
    refine ⟨held.named,held.defaults,fun value time ended => ?_⟩
    simp only [GetPc.returned.injEq,Result.defaultValue.injEq] at ended
    exact ended.1.symm.trans held.defaults
  | _ => exact ⟨old,before,lookup⟩

theorem lookup_run (run : Run (machine (I := I) json ttlSeconds)) {begun call : Nat} {service : I}
    {key : String} {defaultValue : V} (asks : run.Happens begun (.get call service key defaultValue))
    (unused : (run.state begun).gets call = none) : ∀ i, begun + 1 ≤ i →
      ∃ record, (run.state i).gets call = some record ∧ Lookup key defaultValue record := by
  apply run.induct_from (begun+1)
  · rw [run.state_succ asks]
    obtain ⟨pc,found,cases⟩ :=
      get_begins json (cacheTtlMs ttlSeconds) _ call service key defaultValue unused
    refine ⟨_,found,rfl,rfl,fun value time ended => ?_⟩
    rcases cases with rfl | ⟨entry,_,rfl⟩
    · simp at ended
    · simp at ended
  · intro i _ _ same ih
    rw [same]
    exact ih
  · intro i event _ happens _ ih
    obtain ⟨record,found,lookup⟩ := ih
    exact lookup.step found (run_move run happens)

end Lookups

section Gate

variable {json : JsonCodec V} {ttlSeconds : Option String} (run : Run (machine (I := I) json ttlSeconds))
  (view : V → Json)

/-- The guard of a request looked the flag up in a call that began at position `begun`; by
position `i` it has decided, with what the call returned at `time`. -/
structure Decided (flag : String) (call begun i : Nat) (outcome : Except Forbidden Unit) (time : Nat) :
    Prop where
  asks : ∃ service enabled, run.Happens begun (.get call service flag enabled) ∧
    view enabled = .boolean true
  unused : (run.state begun).gets call = none
  later : begun < i
  settled : ∃ record result, (run.state i).gets call = some record ∧
    record.pc = .returned result time ∧ gateAnswer view flag result = outcome

def Within (bound time j : Nat) : Prop := (run.state j).now ≤ time ∧ time ≤ (run.state j).now + bound

variable {run view}

/-- A gate closes only on a row that recently said so, whatever fails; it stays open only where
the row recently allowed it or was absent, or where the request could not read the row. -/
theorem gate_follows_row {limit : Nat} (timely : Timely limit run) {flag : String}
    {call begun i time : Nat} {outcome : Except Forbidden Unit}
    (decided : Decided run view flag call begun i outcome time) :
    (∀ denied, outcome = .error denied → denied = featureDisabled flag ∧
      ∃ j ≤ i, Within run (2 * (cacheTtlMs ttlSeconds + limit)) time j ∧
        ∃ value, (run.state j).db flag = some value ∧ isEnabled (view value) = false) ∧
    (outcome = .ok () →
      (∃ j ≤ i, Within run (2 * (cacheTtlMs ttlSeconds + limit)) time j ∧
        ∀ value, (run.state j).db flag = some value → isEnabled (view value) = true) ∨
          ∃ j < i, run.Happens j (.findByKey call false)) := by
  obtain ⟨⟨service,enabled,asks,opens⟩,unused,later,record,result,found,returned,settled⟩ := decided
  obtain ⟨same,read,lookup⟩ := lookup_run run asks unused i later
  obtain rfl := Option.some.inj (found.symm.trans read)
  have named : record.key = flag := lookup.named
  cases result with
  | stored value =>
    have aged := (ageBound_run run limit timely i).gets call record found
    simp only [CallAged,returned] at aged
    obtain ⟨_,⟨j,before,row,rfl⟩,early,late⟩ := aged
    rw [named] at row
    by_cases allowed : isEnabled (view value) = true
    · have admitted : gateAnswer view flag (.stored value) = .ok () := if_pos allowed
      rw [admitted] at settled
      subst settled
      refine ⟨by simp,fun _ => Or.inl ⟨j,before,⟨early,late⟩,fun other present => ?_⟩⟩
      obtain rfl := Option.some.inj (row.symm.trans present)
      exact allowed
    · have refused : gateAnswer view flag (.stored value) = .error (featureDisabled flag) := if_neg allowed
      rw [refused] at settled
      subst settled
      refine ⟨fun denied same => ?_,by simp⟩
      exact ⟨(Except.error.inj same).symm,j,before,⟨early,late⟩,value,row,by simpa using allowed⟩
  | defaultValue value =>
    obtain rfl := lookup.default_only value time returned
    constructor
    · intro denied refused
      rw [← settled] at refused
      simp [gateAnswer,Result.value,opens,isEnabled] at refused
    · intro _
      obtain ⟨j,before,ok,reads,clock,failed | missing⟩ :=
        default_from_read run i call record value time found returned
      · subst failed
        exact Or.inr ⟨j,before,reads⟩
      · refine Or.inl ⟨j,Nat.le_of_lt before,⟨Nat.le_of_eq clock,by omega⟩,fun other present => ?_⟩
        rw [named] at missing
        rw [missing] at present
        contradiction

/-- Switching a flag off: after it stays off for twice the lifetime and the slack, no request
passes but one whose own read of the row failed. -/
theorem switched_off_denies {limit : Nat} (timely : Timely limit run) {flag : String}
    {call begun i time off : Nat} {outcome : Except Forbidden Unit}
    (decided : Decided run view flag call begun i outcome time)
    (stays : ∀ j, off ≤ j → j ≤ i →
      ∃ value, (run.state j).db flag = some value ∧ isEnabled (view value) = false)
    (elapsed : (run.state off).now + 2 * (cacheTtlMs ttlSeconds + limit) < time) :
    outcome = .error (featureDisabled flag) ∨ ∃ j < i, run.Happens j (.findByKey call false) := by
  obtain ⟨closes,passes⟩ := gate_follows_row timely decided
  cases outcome with
  | error denied => exact Or.inl (congrArg Except.error (closes denied rfl).1)
  | ok =>
    refine (passes rfl).imp (fun ⟨j,before,⟨_,late⟩,allowed⟩ => ?_) id
    have after : off ≤ j := by
      by_contra earlier
      have clock : (run.state j).now ≤ (run.state off).now :=
        clock_monotone run (Nat.le_of_not_le earlier)
      omega
    obtain ⟨value,row,disabled⟩ := stays j after before
    rw [allowed value row] at disabled
    contradiction

end Gate

def switchedOff : Run (machine (I := Unit) boolJson none) where
  start := idle
  events := [.updateRow "feature.feed.enabled" false,.get 0 () "feature.feed.enabled" true,
    .redisGet 0 true,.findByKey 0 true,.redisSet 0 true,.setInMemory 0]
  starts := idle_initial
  legal := by simp [Legal,machine,Enabled]

theorem switchedOff_timely : Timely 0 switchedOff := by
  intro i event happens call record writes owner read member
  have bound := (List.getElem?_eq_some_iff.mp happens).1
  change i < 6 at bound
  have early : (switchedOff.state i).now ≤ 0 := by interval_cases i <;> decide
  omega

theorem switchedOff_decided : Decided switchedOff Json.boolean "feature.feed.enabled" 0 1 6
    (.error (featureDisabled "feature.feed.enabled")) 0 :=
  ⟨⟨(),true,rfl,rfl⟩,rfl,by decide,_,_,rfl,rfl,rfl⟩

theorem switchedOff_closes : ∃ j ≤ 6, Within switchedOff (2 * (cacheTtlMs none + 0)) 0 j ∧
    ∃ value, (switchedOff.state j).db "feature.feed.enabled" = some value ∧
      isEnabled (Json.boolean value) = false :=
  ((gate_follows_row switchedOff_timely switchedOff_decided).1 _ rfl).2

end TribeHub.SystemConfig
