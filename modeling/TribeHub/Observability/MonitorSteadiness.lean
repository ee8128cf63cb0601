import Mathlib.Tactic.IntervalCases
import TribeHub.Observability.MonitorLoop

/-! Whether a monitor that is not shut down goes on checking. The loop keeps one timer
or one check exactly as long as no check rejects; a rejected check arms nothing. -/
namespace TribeHub.Observability
open Transition

def Steady (s : LoopState) : Prop :=
  (s.armed.length = 1 ∧ s.inFlight = 0) ∨ (s.armed.length = 0 ∧ s.inFlight = 1)

section Runs

variable {monitor : Monitor} (run : Run (loop monitor))

/-- The service is initialised first and never destroyed. -/
structure KeepsRunning : Prop where
  init : run.Happens 0 .init
  undisturbed : ∀ i, ¬run.Happens i .destroy

def ChecksResolve : Prop :=
  ∀ i answers, run.Happens i (.settle answers) → ∃ alerts, monitor.runCheck answers = .ok alerts

variable {run}

theorem steady_of_phase {s : LoopState} (phase : Phase s) (active : s.armed ≠ [] ∨ 0 < s.inFlight) :
    Steady s := by
  cases phase with
  | waiting timer handle armed idle started => exact Or.inl ⟨by simp [armed],idle⟩
  | checking unarmed busy started => exact Or.inr ⟨by simp [unarmed],busy⟩
  | stopped unarmed idle =>
    rcases active with armed | busy
    · exact absurd unarmed armed
    · omega

theorem active_step {s : LoopState} {event : LoopEvent monitor.Answers} (running : event ≠ .destroy)
    (resolves : ∀ answers, event = .settle answers → ∃ alerts, monitor.runCheck answers = .ok alerts) :
    (nextLoop monitor s event).armed ≠ [] ∨ 0 < (nextLoop monitor s event).inFlight := by
  cases event with
  | init => exact Or.inl (by simp [nextLoop,onModuleInit,scheduleCheck])
  | fire timer => exact Or.inr (by simp [nextLoop])
  | settle answers =>
    obtain ⟨alerts,resolved⟩ := resolves answers rfl
    exact Or.inl (by simp [nextLoop,resolved,scheduleCheck])
  | destroy => contradiction

theorem rejected_unsteady {s : LoopState} {answers : monitor.Answers} {message : String}
    (phase : Phase s) (flying : 0 < s.inFlight) (rejected : monitor.runCheck answers = .error message) :
    ¬Steady (nextLoop monitor s (.settle answers)) := by
  cases phase with
  | waiting timer handle armed idle started => omega
  | checking unarmed busy started => simp [Steady,nextLoop,rejected,unarmed,busy]
  | stopped unarmed idle => omega

theorem steady_iff (running : KeepsRunning run) :
    (∀ i, 0 < i → Steady (run.state i)) ↔ ChecksResolve run := by
  constructor
  · intro steady i answers happens
    cases settled : monitor.runCheck answers with
    | ok alerts => exact ⟨alerts,rfl⟩
    | error message =>
      have later := steady (i+1) (Nat.succ_pos i)
      rw [run.state_succ happens] at later
      exact absurd later (rejected_unsteady (phase_run run i) (run.enabled happens) settled)
  · intro resolve i positive
    apply run.invariant_from 1 Steady ?_ ?_ i positive
    · have phase := phase_run run 1
      rw [run.state_succ running.init] at phase ⊢
      exact steady_of_phase phase (Or.inl (by simp [loop,nextLoop,onModuleInit,scheduleCheck]))
    · intro i event _ happens _
      have phase := phase_run run (i+1)
      rw [run.state_succ happens] at phase
      apply steady_of_phase phase
      refine active_step ?_ ?_
      · intro equal
        subst equal
        exact running.undisturbed i happens
      · intro answers equal
        subst equal
        exact resolve i answers happens

end Runs

/-- The queue monitor goes on exactly while both counts of its queue can be read, the app
monitor exactly while the registry can be exported, and the security monitor always. -/
theorem monitors_steady_iff (queue : QueueMonitor) (app : AppMonitor) (security : SecurityMonitor) :
    (∀ run : Run (loop queue.monitor), KeepsRunning run →
      ((∀ i, 0 < i → Steady (run.state i)) ↔ ∀ i (answers : QueueAnswers),
        run.Happens i (.settle answers) → (∃ count, answers.waitingCount = .ok count) ∧
          ∃ count, answers.failedCount = .ok count)) ∧
      (∀ run : Run (loop app.monitor), KeepsRunning run →
        ((∀ i, 0 < i → Steady (run.state i)) ↔ ∀ i (answers : AppAnswers),
          run.Happens i (.settle answers) → ∃ metricsJson, answers.metricsJson = .ok metricsJson)) ∧
        ∀ run : Run (loop security.monitor), KeepsRunning run →
          ∀ i, 0 < i → Steady (run.state i) := by
  refine ⟨fun run running => ?_,fun run running => ?_,fun run running => ?_⟩
  · rw [steady_iff running]
    exact forall₃_congr (fun _ answers _ => queue.runCheck_resolves answers)
  · rw [steady_iff running]
    exact forall₃_congr (fun _ answers _ => app.runCheck_resolves answers)
  · exact (steady_iff running).mpr (fun _ answers _ => security.runCheck_resolves answers)

def MonitorsNeverStop (queue : QueueMonitor) (app : AppMonitor) (security : SecurityMonitor) : Prop :=
  ∀ monitor ∈ [queue.monitor,app.monitor,security.monitor], ∀ run : Run (loop monitor),
    KeepsRunning run → ∀ i, 0 < i → Steady (run.state i)

def noWebhooks : Webhooks := ⟨none,none,none⟩

def defaultQueue : QueueMonitor := .fromEnv noWebhooks none none

theorem defaultQueue_initial : (loop defaultQueue.monitor).init idleLoop := ⟨rfl,rfl,rfl,rfl⟩

def defaultApp : AppMonitor := .fromEnv noWebhooks none none none none

def defaultSecurity : SecurityMonitor := .fromEnv none none none

def oneCheck : Run (loop defaultQueue.monitor) where
  start := idleLoop
  events := [.init,.fire 0,.settle (⟨.ok 3,.ok 0,fun _ => .ok 204⟩ : QueueAnswers)]
  starts := defaultQueue_initial
  legal := ⟨rfl,List.mem_singleton.mpr rfl,Nat.one_pos,trivial⟩

theorem oneCheck_steady : ∀ i, 0 < i → Steady (oneCheck.state i) := by
  have running : KeepsRunning oneCheck := by
    refine ⟨rfl,fun i happens => ?_⟩
    have member := List.mem_of_getElem? happens
    simp [oneCheck] at member
  refine ((monitors_steady_iff defaultQueue defaultApp defaultSecurity).1 oneCheck running).mpr ?_
  intro i answers happens
  obtain ⟨bound,equal⟩ := List.getElem?_eq_some_iff.mp happens
  have bound : i < 3 := bound
  interval_cases i <;> cases equal
  exact ⟨⟨3,rfl⟩,0,rfl⟩

def redisOutage : Run (loop defaultQueue.monitor) where
  start := idleLoop
  events := [.init,.fire 0,
    .settle (⟨.error "ECONNREFUSED",.ok 0,fun _ => .ok 204⟩ : QueueAnswers)]
  starts := defaultQueue_initial
  legal := ⟨rfl,List.mem_singleton.mpr rfl,Nat.one_pos,trivial⟩

theorem monitors_stop : ¬MonitorsNeverStop defaultQueue defaultApp defaultSecurity := by
  intro promised
  have running : KeepsRunning redisOutage := by
    refine ⟨rfl,fun i happens => ?_⟩
    have member := List.mem_of_getElem? happens
    simp [redisOutage] at member
  have steady := promised defaultQueue.monitor (by simp) redisOutage running 3 (by decide)
  rcases steady with ⟨armed,_⟩ | ⟨_,busy⟩
  · exact absurd armed (by decide)
  · exact absurd busy (by decide)

end TribeHub.Observability
