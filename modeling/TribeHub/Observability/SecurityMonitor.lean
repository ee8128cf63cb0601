import Mathlib.Logic.Function.Basic
import TribeHub.Library.Transition
import TribeHub.Observability.Alerts

/-! SecurityMonitorService: the two capped lists of timestamps, and `runCheck` as calls
that suspend while an alert is being sent. Recording never suspends. -/
namespace TribeHub.Observability

def windowMs : Int := 5 * 60 * 1000

def maxTimestamps : Nat := 10000

structure SecurityMonitor where
  bruteForceThreshold : Int
  invalidTokenThreshold : Int
  webhookUrl : Option String

def SecurityMonitor.fromEnv (webhookUrl bruteForce invalidToken : Option String) :
    SecurityMonitor where
  bruteForceThreshold := Js.intOr (Js.parseInt (bruteForce.getD "")) 10
  invalidTokenThreshold := Js.intOr (Js.parseInt (invalidToken.getD "")) 50
  webhookUrl := webhookUrl

/-- The push of a record method, and the splice that caps the list. -/
def pushTimestamp (list : List Int) (timestamp : Int) : List Int :=
  let pushed := list ++ [timestamp]
  if pushed.length > maxTimestamps then pushed.drop (pushed.length - maxTimestamps) else pushed

/-- SecurityMonitorService.pruneTimestamps: the front is skipped while it is too old. -/
def pruneTimestamps (list : List Int) (cutoff : Int) : List Int :=
  list.dropWhile (fun timestamp => timestamp < cutoff)

inductive Kind where
  | failedLogin
  | invalidToken
  deriving DecidableEq

def Kind.metric : Kind → String
  | .failedLogin => "brute_force_login"
  | .invalidToken => "invalid_token"

def SecurityMonitor.threshold (monitor : SecurityMonitor) : Kind → Int
  | .failedLogin => monitor.bruteForceThreshold
  | .invalidToken => monitor.invalidTokenThreshold

def SecurityMonitor.alertFor (monitor : SecurityMonitor) (kind : Kind) (count : Nat) : Alert :=
  ⟨monitor.webhookUrl,"security",kind.metric,count,.finite (monitor.threshold kind),.security⟩

def SecurityMonitor.alert (monitor : SecurityMonitor) (kind : Kind) (count : Nat) : List Alert :=
  if (count : Int) > monitor.threshold kind then [monitor.alertFor kind count] else []

def SecurityMonitor.alerts (monitor : SecurityMonitor) (count : Kind → Nat) : List Alert :=
  monitor.alert .failedLogin (count .failedLogin) ++
    monitor.alert .invalidToken (count .invalidToken)

theorem SecurityMonitor.alertFor_mem (monitor : SecurityMonitor) (count : Kind → Nat)
    (kind : Kind) : monitor.alertFor kind (count kind) ∈ monitor.alerts count ↔
      monitor.threshold kind < count kind := by
  have apart {other : Kind} (distinct : kind ≠ other) :
      monitor.alertFor kind (count kind) ∉ monitor.alert other (count other) := by
    intro member
    unfold SecurityMonitor.alert at member
    split at member
    · have same := congrArg (fun alert => alert.payload.metric) (List.mem_singleton.mp member)
      cases kind <;> cases other <;> simp [alertFor,Kind.metric] at same distinct
    · simp at member
  have own : monitor.alertFor kind (count kind) ∈ monitor.alert kind (count kind) ↔
      monitor.threshold kind < count kind := by
    unfold SecurityMonitor.alert
    split
    · rename_i exceeded
      simpa using exceeded
    · rename_i within
      simpa using within
  unfold SecurityMonitor.alerts
  cases kind with
  | failedLogin => rw [List.mem_append,own,or_iff_left (apart (by decide))]
  | invalidToken => rw [List.mem_append,own,or_iff_right (apart (by decide))]

inductive CheckPc where
  | bruteForce
  | invalidToken
  | resolved
  deriving DecidableEq

/-- A check under way: its two counts and the alerts it has handed to `sendAlert`. -/
structure Check where
  count : Kind → Nat
  sent : List Alert
  pc : CheckPc

structure SecurityState where
  now : Int
  failedLoginTimestamps : List Int
  invalidTokenTimestamps : List Int
  checks : Nat → Option Check

def SecurityState.timestamps (s : SecurityState) : Kind → List Int
  | .failedLogin => s.failedLoginTimestamps
  | .invalidToken => s.invalidTokenTimestamps

def recordFailedLogin (s : SecurityState) (timestamp : Option Int) : SecurityState :=
  {s with failedLoginTimestamps := pushTimestamp s.failedLoginTimestamps (timestamp.getD s.now)}

def recordInvalidToken (s : SecurityState) (timestamp : Option Int) : SecurityState :=
  {s with invalidTokenTimestamps := pushTimestamp s.invalidTokenTimestamps (timestamp.getD s.now)}

def record (s : SecurityState) : Kind → Option Int → SecurityState
  | .failedLogin => recordFailedLogin s
  | .invalidToken => recordInvalidToken s

/-- `clock` sets the time; `resume` is the resolution of the `sendAlert` a check awaits. -/
inductive SecurityEvent where
  | clock (time : Int)
  | record (kind : Kind) (timestamp : Option Int)
  | runCheck (check : Nat)
  | resume (check : Nat)

def checkInvalidToken (monitor : SecurityMonitor) (check : Check) : Check :=
  let alert := monitor.alert .invalidToken (check.count .invalidToken)
  {check with
    sent := check.sent ++ alert
    pc := if alert.isEmpty then .resolved else .invalidToken}

def beginCheck (monitor : SecurityMonitor) (count : Kind → Nat) : Check :=
  let alert := monitor.alert .failedLogin (count .failedLogin)
  let check := ⟨count,alert,.bruteForce⟩
  if alert.isEmpty then checkInvalidToken monitor check else check

/-- The check goes on when the `sendAlert` that it awaits resolves. -/
def Check.resume (monitor : SecurityMonitor) (check : Check) : Check :=
  match check.pc with
  | .bruteForce => checkInvalidToken monitor check
  | .invalidToken => {check with pc := .resolved}
  | .resolved => check

def SecurityState.setCheck (s : SecurityState) (check : Nat) (record : Check) : SecurityState :=
  {s with checks := Function.update s.checks check (some record)}

def nextSecurity (monitor : SecurityMonitor) (s : SecurityState) : SecurityEvent → SecurityState
  | .clock time => {s with now := time}
  | .record kind timestamp => record s kind timestamp
  | .runCheck check =>
    let cutoff := s.now - windowMs
    let failedLogin := pruneTimestamps s.failedLoginTimestamps cutoff
    let invalidToken := pruneTimestamps s.invalidTokenTimestamps cutoff
    let count : Kind → Nat
      | .failedLogin => failedLogin.length
      | .invalidToken => invalidToken.length
    {s.setCheck check (beginCheck monitor count) with
      failedLoginTimestamps := failedLogin
      invalidTokenTimestamps := invalidToken}
  | .resume check =>
    match s.checks check with
    | some found => s.setCheck check (found.resume monitor)
    | none => s

def SecurityInitial (s : SecurityState) : Prop :=
  s.failedLoginTimestamps = [] ∧ s.invalidTokenTimestamps = [] ∧ ∀ check, s.checks check = none

def securityMachine (monitor : SecurityMonitor) :
    Transition.Machine SecurityState SecurityEvent where
  init := SecurityInitial
  enabled s
    | .runCheck check => s.checks check = none
    | _ => True
  next := nextSecurity monitor

section Lists

variable {monitor : SecurityMonitor} {s : SecurityState}

theorem timestamps_record_same (s : SecurityState) (kind : Kind) (timestamp : Option Int) :
    (record s kind timestamp).timestamps kind =
      pushTimestamp (s.timestamps kind) (timestamp.getD s.now) := by
  cases kind <;> rfl

theorem record_other (s : SecurityState) {kind other : Kind} (distinct : other ≠ kind)
    (timestamp : Option Int) : (record s kind timestamp).timestamps other = s.timestamps other := by
  cases kind with
  | failedLogin =>
    cases other with
    | failedLogin => contradiction
    | invalidToken => rfl
  | invalidToken =>
    cases other with
    | failedLogin => rfl
    | invalidToken => contradiction

theorem record_checks (s : SecurityState) (kind : Kind) (timestamp : Option Int) :
    (record s kind timestamp).checks = s.checks ∧ (record s kind timestamp).now = s.now := by
  cases kind <;> exact ⟨rfl,rfl⟩

theorem timestamps_runCheck (s : SecurityState) (kind : Kind) (check : Nat) :
    (nextSecurity monitor s (.runCheck check)).timestamps kind =
      pruneTimestamps (s.timestamps kind) (s.now - windowMs) := by
  cases kind <;> rfl

theorem resume_kept (monitor : SecurityMonitor) (s : SecurityState) (check : Nat) :
    (nextSecurity monitor s (.resume check)).now = s.now ∧
      ∀ kind, (nextSecurity monitor s (.resume check)).timestamps kind = s.timestamps kind := by
  simp only [nextSecurity]
  split
  · exact ⟨rfl,fun kind => by cases kind <;> rfl⟩
  · exact ⟨rfl,fun _ => rfl⟩

end Lists

theorem SecurityMonitor.alert_cases (monitor : SecurityMonitor) (kind : Kind) (count : Nat) :
    monitor.alert kind count = [] ∨ monitor.alert kind count = [monitor.alertFor kind count] := by
  unfold SecurityMonitor.alert
  split
  · exact Or.inr rfl
  · exact Or.inl rfl

/-- A check that has gone on `resumes` times: it has handed over as many of its alerts and the
one that it awaits, and it is resolved as soon as it awaits none. -/
structure Check.Handed (monitor : SecurityMonitor) (resumes : Nat) (check : Check) : Prop where
  sent : check.sent = (monitor.alerts check.count).take (resumes + 1)
  resolved : check.pc = .resolved ↔ (monitor.alerts check.count).length ≤ resumes
  bruteForce : check.pc = .bruteForce →
    resumes = 0 ∧ monitor.alert .failedLogin (check.count .failedLogin) ≠ []
  invalidToken : check.pc = .invalidToken → (monitor.alerts check.count).length = resumes + 1

section Steps

variable {monitor : SecurityMonitor}

theorem Check.Handed.sent_all {check : Check} {resumes : Nat} (handed : check.Handed monitor resumes)
    (resolved : check.pc = .resolved) : check.sent = monitor.alerts check.count := by
  have all := handed.resolved.mp resolved
  rw [handed.sent,List.take_of_length_le (by omega)]

/-- Past the first alert the check is resolved unless it awaits the second. -/
theorem checkInvalidToken_handed {check : Check} {resumes : Nat}
    (sent : check.sent = monitor.alert .failedLogin (check.count .failedLogin))
    (handed : check.sent.length = resumes) : (checkInvalidToken monitor check).Handed monitor resumes := by
  have alerts : monitor.alerts check.count =
      check.sent ++ monitor.alert .invalidToken (check.count .invalidToken) := by
    rw [sent]
    rfl
  rcases monitor.alert_cases .invalidToken (check.count .invalidToken) with none | one
  · rw [none,List.append_nil] at alerts
    have after : checkInvalidToken monitor check = {check with pc := .resolved} := by
      simp [checkInvalidToken,none]
    rw [after]
    refine ⟨?_,?_,by simp,by simp⟩
    · simp only [alerts]
      exact (List.take_of_length_le (by omega)).symm
    · simp [alerts,handed]
  · rw [one] at alerts
    have after : checkInvalidToken monitor check =
        ⟨check.count,check.sent ++ [monitor.alertFor .invalidToken (check.count .invalidToken)],
          .invalidToken⟩ := by
      simp [checkInvalidToken,one]
    rw [after]
    refine ⟨?_,?_,by simp,?_⟩
    · simp only [alerts]
      exact (List.take_of_length_le (by simp [handed])).symm
    · simp [alerts,handed]
    · simp [alerts,handed]

theorem beginCheck_handed (monitor : SecurityMonitor) (count : Kind → Nat) :
    (beginCheck monitor count).Handed monitor 0 ∧ (beginCheck monitor count).count = count := by
  rcases monitor.alert_cases .failedLogin (count .failedLogin) with none | one
  · have begun : beginCheck monitor count = checkInvalidToken monitor ⟨count,[],.bruteForce⟩ := by
      simp [beginCheck,none]
    rw [begun]
    exact ⟨checkInvalidToken_handed none.symm rfl,rfl⟩
  · have begun : beginCheck monitor count =
        ⟨count,[monitor.alertFor .failedLogin (count .failedLogin)],.bruteForce⟩ := by
      simp [beginCheck,one]
    rw [begun]
    refine ⟨⟨?_,?_,fun _ => ⟨rfl,by simp [one]⟩,by simp⟩,rfl⟩
    · simp [SecurityMonitor.alerts,one]
    · simp [SecurityMonitor.alerts,one]

theorem Check.resume_count (check : Check) : (check.resume monitor).count = check.count := by
  unfold Check.resume
  split <;> rfl

/-- Each resolution of an awaited alert moves the check on. -/
theorem Check.Handed.resume {check : Check} {resumes : Nat} (handed : check.Handed monitor resumes) :
    (check.resume monitor).Handed monitor (resumes + 1) := by
  cases position : check.pc with
  | bruteForce =>
    obtain ⟨rfl,alerted⟩ := handed.bruteForce position
    have first := (monitor.alert_cases .failedLogin (check.count .failedLogin)).resolve_left alerted
    have sent : check.sent = monitor.alert .failedLogin (check.count .failedLogin) := by
      rw [handed.sent,SecurityMonitor.alerts,first]
      rfl
    have after : check.resume monitor = checkInvalidToken monitor check := by
      simp [Check.resume,position]
    rw [after]
    exact checkInvalidToken_handed sent (by rw [sent,first]; rfl)
  | invalidToken =>
    have last := handed.invalidToken position
    have after : check.resume monitor = {check with pc := .resolved} := by
      simp [Check.resume,position]
    have whole : check.sent = monitor.alerts check.count := by
      rw [handed.sent,List.take_of_length_le (by omega)]
    rw [after]
    refine ⟨whole.trans (List.take_of_length_le ?_).symm,?_,by simp,by simp⟩
    · exact last.le.trans (Nat.le_succ _)
    · simp [last]
  | resolved =>
    have all := handed.resolved.mp position
    have after : check.resume monitor = check := by
      simp [Check.resume,position]
    rw [after]
    refine ⟨(handed.sent_all position).trans (List.take_of_length_le (by omega)).symm,?_,by simp [position],by simp [position]⟩
    simp only [position,true_iff]
    omega

theorem runCheck_begins (monitor : SecurityMonitor) (s : SecurityState) (id : Nat) :
    ∃ check, (nextSecurity monitor s (.runCheck id)).checks id = some check ∧
      check.Handed monitor 0 ∧
        ∀ kind, check.count kind = (pruneTimestamps (s.timestamps kind) (s.now - windowMs)).length := by
  obtain ⟨handed,count⟩ := beginCheck_handed monitor (fun kind =>
    match kind with
    | .failedLogin => (pruneTimestamps s.failedLoginTimestamps (s.now - windowMs)).length
    | .invalidToken => (pruneTimestamps s.invalidTokenTimestamps (s.now - windowMs)).length)
  refine ⟨_,Function.update_self ..,handed,fun kind => ?_⟩
  rw [count]
  cases kind <;> rfl

theorem resume_own {s : SecurityState} {id : Nat} {check : Check} (found : s.checks id = some check) :
    (nextSecurity monitor s (.resume id)).checks id = some (check.resume monitor) := by
  simp only [nextSecurity,found]
  exact Function.update_self ..

theorem resume_other {s : SecurityState} {id other : Nat} (distinct : id ≠ other) :
    (nextSecurity monitor s (.resume other)).checks id = s.checks id := by
  simp only [nextSecurity]
  split
  · exact Function.update_of_ne distinct ..
  · rfl

end Steps

end TribeHub.Observability
