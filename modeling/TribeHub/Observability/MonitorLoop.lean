import TribeHub.Library.Transition
import TribeHub.Observability.AppMonitor
import TribeHub.Observability.SecurityMonitor

/-! The schedule that QueueMonitorService, AppMonitorService and SecurityMonitorService
share: a timer starts a check, and the resolution of the check arms the next timer. -/
namespace TribeHub.Observability
open Transition

/-- A monitor, by what its `runCheck` makes of the answers it awaits. -/
structure Monitor where
  Answers : Type
  runCheck : Answers → Except String (List Alert)
  resolves : ∃ answers alerts, runCheck answers = .ok alerts

structure QueueMonitor where
  waitingThreshold : Int
  failedThreshold : Int
  webhooks : Webhooks

def QueueMonitor.fromEnv (webhooks : Webhooks) (waiting failed : Option String) : QueueMonitor where
  waitingThreshold := Js.intOr (Js.parseInt (waiting.getD "")) 50
  failedThreshold := Js.intOr (Js.parseInt (failed.getD "")) 20
  webhooks := webhooks

structure QueueAnswers where
  waitingCount : Except String Nat
  failedCount : Except String Nat
  fetch : Alert → Except String Nat

def QueueMonitor.runCheck (monitor : QueueMonitor) (answers : QueueAnswers) :
    Except String (List Alert) := do
  let waitingCount ← answers.waitingCount
  let failedCount ← answers.failedCount
  let failed := if (failedCount : Int) > monitor.failedThreshold then
    [⟨monitor.webhooks.critical,"jobs","failed_jobs",failedCount,.finite monitor.failedThreshold,
      .critical⟩] else []
  let _ ← sendAlerts failed answers.fetch
  let waiting := if (waitingCount : Int) > monitor.waitingThreshold then
    [⟨monitor.webhooks.ops,"jobs","waiting_jobs",waitingCount,.finite monitor.waitingThreshold,
      .ops⟩] else []
  let _ ← sendAlerts waiting answers.fetch
  pure (failed ++ waiting)

theorem QueueMonitor.runCheck_resolves (monitor : QueueMonitor) (answers : QueueAnswers) :
    (∃ alerts, monitor.runCheck answers = .ok alerts) ↔
      (∃ count, answers.waitingCount = .ok count) ∧ ∃ count, answers.failedCount = .ok count := by
  unfold QueueMonitor.runCheck
  cases waiting : answers.waitingCount with
  | error message => simp [bind,Except.bind]
  | ok waitingCount =>
    cases failed : answers.failedCount with
    | error message => simp [bind,Except.bind]
    | ok failedCount =>
      simp only [bind,Except.bind]
      obtain ⟨first,sent⟩ := sendAlerts_resolves (if (failedCount : Int) > monitor.failedThreshold then
        [⟨monitor.webhooks.critical,"jobs","failed_jobs",failedCount,
          .finite monitor.failedThreshold,.critical⟩] else []) answers.fetch
      obtain ⟨second,last⟩ := sendAlerts_resolves
        (if (waitingCount : Int) > monitor.waitingThreshold then
          [⟨monitor.webhooks.ops,"jobs","waiting_jobs",waitingCount,
            .finite monitor.waitingThreshold,.ops⟩] else []) answers.fetch
      rw [sent,last]
      simp [pure,Except.pure]

structure SecurityAnswers where
  count : Kind → Nat
  fetch : Alert → Except String Nat

def SecurityMonitor.runCheck (monitor : SecurityMonitor) (answers : SecurityAnswers) :
    Except String (List Alert) := do
  let _ ← sendAlerts (monitor.alerts answers.count) answers.fetch
  pure (monitor.alerts answers.count)

theorem SecurityMonitor.runCheck_resolves (monitor : SecurityMonitor) (answers : SecurityAnswers) :
    ∃ alerts, monitor.runCheck answers = .ok alerts := by
  obtain ⟨deliveries,sent⟩ := sendAlerts_resolves (monitor.alerts answers.count) answers.fetch
  exact ⟨monitor.alerts answers.count,by simp [SecurityMonitor.runCheck,sent,bind,Except.bind,pure,Except.pure]⟩

def QueueMonitor.monitor (queue : QueueMonitor) : Monitor where
  Answers := QueueAnswers
  runCheck := queue.runCheck
  resolves := ⟨⟨.ok 0,.ok 0,fun _ => .ok 204⟩,(queue.runCheck_resolves _).mpr ⟨⟨0,rfl⟩,0,rfl⟩⟩

def AppMonitor.monitor (app : AppMonitor) : Monitor where
  Answers := AppAnswers
  runCheck := app.runCheck
  resolves := ⟨⟨.ok [],none,0,1,fun _ => .ok 204⟩,(app.runCheck_resolves _).mpr ⟨[],rfl⟩⟩

def SecurityMonitor.monitor (security : SecurityMonitor) : Monitor where
  Answers := SecurityAnswers
  runCheck := security.runCheck
  resolves := ⟨⟨fun _ => 0,fun _ => .ok 204⟩,security.runCheck_resolves _⟩

/-- `armed` are the timers of the event loop that have neither fired nor been cleared. -/
structure LoopState where
  timeoutHandle : Option Nat
  armed : List Nat
  nextTimer : Nat
  inFlight : Nat
  initialised : Bool

inductive LoopEvent (Answers : Type) where
  | init
  | fire (timer : Nat)
  | settle (answers : Answers)
  | destroy

def scheduleCheck (s : LoopState) : LoopState :=
  {s with
    timeoutHandle := some s.nextTimer
    armed := s.nextTimer :: s.armed
    nextTimer := s.nextTimer + 1}

def onModuleInit (s : LoopState) : LoopState := {scheduleCheck s with initialised := true}

/-- Clearing a timer that has fired does nothing. -/
def onModuleDestroy (s : LoopState) : LoopState :=
  match s.timeoutHandle with
  | some handle => {s with armed := s.armed.erase handle, timeoutHandle := none}
  | none => s

/-- `runCheck().then(...)`: only a resolution schedules the next check. -/
def nextLoop (monitor : Monitor) (s : LoopState) : LoopEvent monitor.Answers → LoopState
  | .init => onModuleInit s
  | .fire timer => {s with armed := s.armed.erase timer, inFlight := s.inFlight + 1}
  | .settle answers =>
    match monitor.runCheck answers with
    | .ok _ => scheduleCheck {s with inFlight := s.inFlight - 1}
    | .error _ => {s with inFlight := s.inFlight - 1}
  | .destroy => onModuleDestroy s

/-- The service is initialised once, armed timers fire, and checks in flight settle. -/
def loop (monitor : Monitor) : Machine LoopState (LoopEvent monitor.Answers) where
  init s := s.timeoutHandle = none ∧ s.armed = [] ∧ s.inFlight = 0 ∧ s.initialised = false
  enabled s
    | .init => s.initialised = false
    | .fire timer => timer ∈ s.armed
    | .settle _ => 0 < s.inFlight
    | .destroy => True
  next := nextLoop monitor

def idleLoop : LoopState := ⟨none,[],0,0,false⟩

/-- Between two moments of the loop there is one timer, or one check, or neither. -/
inductive Phase (s : LoopState) : Prop
  | waiting (timer : Nat) (handle : s.timeoutHandle = some timer) (armed : s.armed = [timer])
      (idle : s.inFlight = 0) (started : s.initialised = true)
  | checking (unarmed : s.armed = []) (busy : s.inFlight = 1) (started : s.initialised = true)
  | stopped (unarmed : s.armed = []) (idle : s.inFlight = 0)

section Step

variable {monitor : Monitor} {s : LoopState}

theorem scheduled_waiting (unarmed : s.armed = []) (idle : s.inFlight = 0)
    (started : s.initialised = true) : Phase (scheduleCheck s) :=
  .waiting s.nextTimer rfl (by simp [scheduleCheck,unarmed]) idle started

theorem phase_step (event : LoopEvent monitor.Answers) (enabled : (loop monitor).enabled s event)
    (phase : Phase s) : Phase (nextLoop monitor s event) := by
  cases event with
  | init =>
    have fresh : s.initialised = false := enabled
    cases phase with
    | waiting timer handle armed idle started => simp [fresh] at started
    | checking unarmed busy started => simp [fresh] at started
    | stopped unarmed idle =>
      exact .waiting s.nextTimer rfl (by simp [nextLoop,onModuleInit,scheduleCheck,unarmed]) idle rfl
  | fire timer =>
    have armed_timer : timer ∈ s.armed := enabled
    cases phase with
    | waiting other handle armed idle started =>
      obtain rfl : timer = other := by simpa [armed] using armed_timer
      exact .checking (by simp [nextLoop,armed]) (by simp [nextLoop,idle]) started
    | checking unarmed busy started => simp [unarmed] at armed_timer
    | stopped unarmed idle => simp [unarmed] at armed_timer
  | settle answers =>
    have flying : 0 < s.inFlight := enabled
    cases phase with
    | waiting timer handle armed idle started => omega
    | checking unarmed busy started =>
      simp only [nextLoop]
      split
      · exact scheduled_waiting unarmed (by simp [busy]) started
      · exact .stopped unarmed (by simp [busy])
    | stopped unarmed idle => omega
  | destroy =>
    cases phase with
    | waiting timer handle armed idle started =>
      exact .stopped (by simp [nextLoop,onModuleDestroy,handle,armed])
        (by simpa [nextLoop,onModuleDestroy,handle] using idle)
    | checking unarmed busy started =>
      have kept : (nextLoop monitor s .destroy).armed = [] ∧
          (nextLoop monitor s .destroy).inFlight = 1 ∧
            (nextLoop monitor s .destroy).initialised = true := by
        simp only [nextLoop,onModuleDestroy]
        split <;> simp [unarmed,busy,started]
      exact .checking kept.1 kept.2.1 kept.2.2
    | stopped unarmed idle =>
      have kept : (nextLoop monitor s .destroy).armed = [] ∧
          (nextLoop monitor s .destroy).inFlight = 0 := by
        simp only [nextLoop,onModuleDestroy]
        split <;> simp [unarmed,idle]
      exact .stopped kept.1 kept.2

end Step

theorem phase_run {monitor : Monitor} (run : Run (loop monitor)) (i : Nat) : Phase (run.state i) := by
  apply run.invariant Phase
  · intro s initial
    exact .stopped initial.2.1 initial.2.2.1
  · intro s event enabled phase
    exact phase_step event enabled phase

end TribeHub.Observability
