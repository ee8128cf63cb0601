import TribeHub.Observability.MonitorSteadiness

/-! Whether a shutdown is final. `onModuleDestroy` clears the timer it knows of; a check
in flight, whose timer has fired, schedules the next one when it resolves. -/
namespace TribeHub.Observability
open Transition

variable {monitor : Monitor}

/-- After the event at position `i` no timer is armed and no check starts. -/
def ShutDown (run : Run (loop monitor)) (i : Nat) : Prop :=
  ∀ j, i < j → (run.state j).armed = [] ∧ ∀ timer, ¬run.Happens j (.fire timer)

def Reachable (monitor : Monitor) (s : LoopState) : Prop :=
  ∃ (run : Run (loop monitor)) (i : Nat), i ≤ run.events.length ∧ run.state i = s

/-- Every shutdown that finds the service in this state is final. -/
def ShutdownFinal (monitor : Monitor) (s : LoopState) : Prop :=
  ∀ (run : Run (loop monitor)) i, run.state i = s → run.Happens i .destroy → ShutDown run i

structure Quiet (s : LoopState) : Prop where
  started : s.initialised = true
  unarmed : s.armed = []
  idle : s.inFlight = 0

theorem quiet_step {s : LoopState} (quiet : Quiet s) (event : LoopEvent monitor.Answers)
    (enabled : (loop monitor).enabled s event) : Quiet (nextLoop monitor s event) := by
  cases event with
  | init =>
    have fresh : s.initialised = false := enabled
    simp [quiet.started] at fresh
  | fire timer =>
    have armed : timer ∈ s.armed := enabled
    simp [quiet.unarmed] at armed
  | settle answers =>
    have flying : 0 < s.inFlight := enabled
    have idle := quiet.idle
    omega
  | destroy =>
    simp only [nextLoop,onModuleDestroy]
    split
    · exact ⟨quiet.started,by simp [quiet.unarmed],quiet.idle⟩
    · exact quiet

theorem destroy_quiet {s : LoopState} (phase : Phase s) (started : s.initialised = true)
    (idle : s.inFlight = 0) : Quiet (nextLoop monitor s .destroy) := by
  cases phase with
  | waiting timer handle armed idle started =>
    refine ⟨?_,by simp [nextLoop,onModuleDestroy,handle,armed],?_⟩
    · simpa [nextLoop,onModuleDestroy,handle] using started
    · simpa [nextLoop,onModuleDestroy,handle] using idle
  | checking unarmed busy _ => omega
  | stopped unarmed _ => exact quiet_step ⟨started,unarmed,idle⟩ .destroy trivial

theorem shutdown_of_idle {s : LoopState} (started : s.initialised = true) (idle : s.inFlight = 0) :
    ShutdownFinal monitor s := by
  intro run i here happens j later
  subst here
  have quiet : Quiet (run.state j) := by
    apply run.invariant_from (i+1) Quiet ?_ ?_ j later
    · have cleared : Quiet (nextLoop monitor (run.state i) .destroy) :=
        destroy_quiet (phase_run run i) started idle
      rw [run.state_succ happens]
      exact cleared
    · intro k event _ occurs quiet
      exact quiet_step quiet event (run.enabled occurs)
  refine ⟨quiet.unarmed,fun timer fires => ?_⟩
  have armed : timer ∈ (run.state j).armed := run.enabled fires
  simp [quiet.unarmed] at armed

theorem not_final {s : LoopState} (reachable : Reachable monitor s)
    (event : LoopEvent monitor.Answers)
    (enabled : (loop monitor).enabled (nextLoop monitor s .destroy) event)
    (arms : (nextLoop monitor (nextLoop monitor s .destroy) event).armed ≠ []) :
    ¬ShutdownFinal monitor s := by
  intro final
  obtain ⟨run,i,bound,rfl⟩ := reachable
  have legal : Legal (loop monitor) (run.state i) [.destroy,event] := ⟨trivial,enabled,trivial⟩
  let longer := run.extend i [.destroy,event] legal
  have here : longer.state i = run.state i := run.extend_state bound _ legal 0
  have destroys : longer.Happens i .destroy := run.extend_happens bound _ legal 0 _ rfl
  have after : longer.state (i+2) = nextLoop monitor (nextLoop monitor (run.state i) .destroy) event :=
    run.extend_state bound _ legal 2
  have unarmed := (final longer i here destroys (i+2) (by omega)).1
  rw [after] at unarmed
  exact arms unarmed

theorem shutdown_final_iff {s : LoopState} (reachable : Reachable monitor s) :
    ShutdownFinal monitor s ↔ s.initialised = true ∧ s.inFlight = 0 := by
  constructor
  · intro final
    by_contra active
    have kept : (nextLoop monitor s .destroy).initialised = s.initialised ∧
        (nextLoop monitor s .destroy).inFlight = s.inFlight := by
      simp only [nextLoop,onModuleDestroy]
      split <;> exact ⟨rfl,rfl⟩
    cases started : s.initialised with
    | false =>
      refine not_final reachable .init ?_ ?_ final
      · exact kept.1.trans started
      · simp [nextLoop,onModuleInit,scheduleCheck]
    | true =>
      obtain ⟨answers,alerts,resolved⟩ := monitor.resolves
      refine not_final reachable (.settle answers) ?_ ?_ final
      · have flying : 0 < s.inFlight := by
          have busy : s.inFlight ≠ 0 := fun idle => active ⟨started,idle⟩
          omega
        exact lt_of_lt_of_eq flying kept.2.symm
      · simp [nextLoop,resolved,scheduleCheck]
  · intro ready
    obtain ⟨started,idle⟩ := ready
    exact shutdown_of_idle started idle

/-- For each of the three services: a shutdown is final exactly when it comes after the
initialisation and meets no check in flight. -/
theorem monitors_shutdown_final_iff (queue : QueueMonitor) (app : AppMonitor)
    (security : SecurityMonitor) :
    ∀ monitor ∈ [queue.monitor,app.monitor,security.monitor], ∀ s, Reachable monitor s →
      (ShutdownFinal monitor s ↔ s.initialised = true ∧ s.inFlight = 0) :=
  fun _ _ _ reachable => shutdown_final_iff reachable

theorem idle_queue_final : ShutdownFinal defaultQueue.monitor (oneCheck.state 1) := by
  have reachable : Reachable defaultQueue.monitor (oneCheck.state 1) := ⟨oneCheck,1,by decide,rfl⟩
  have final := monitors_shutdown_final_iff defaultQueue defaultApp defaultSecurity
    defaultQueue.monitor (by simp) (oneCheck.state 1) reachable
  exact final.mpr ⟨rfl,rfl⟩

def MonitorsShutDown (queue : QueueMonitor) (app : AppMonitor) (security : SecurityMonitor) : Prop :=
  ∀ monitor ∈ [queue.monitor,app.monitor,security.monitor], ∀ (run : Run (loop monitor)) i,
    run.Happens i .destroy → ShutDown run i

def destroyedWhileChecking : Run (loop defaultQueue.monitor) where
  start := idleLoop
  events := [.init,.fire 0,.destroy,.settle (⟨.ok 3,.ok 0,fun _ => .ok 204⟩ : QueueAnswers)]
  starts := defaultQueue_initial
  legal := ⟨rfl,List.mem_singleton.mpr rfl,trivial,Nat.one_pos,trivial⟩

theorem monitors_survive_shutdown : ¬MonitorsShutDown defaultQueue defaultApp defaultSecurity := by
  intro promised
  have down := promised defaultQueue.monitor (by simp) destroyedWhileChecking 2 rfl
  have unarmed := (down 4 (by decide)).1
  exact absurd unarmed (by decide)

end TribeHub.Observability
