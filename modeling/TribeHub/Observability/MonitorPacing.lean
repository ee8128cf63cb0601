import TribeHub.Library.Window
import TribeHub.Observability.MonitorLoop

/-! How often the monitors check and alert. The loop of MonitorLoop with the interval of its
timer: a timer is due its delay after it was armed, and never fires before. -/
namespace TribeHub.Observability
open Transition Window

/-- The interval of each service: `parseInt(value ?? '', 10) || DEFAULT_INTERVAL_MS`. -/
def intervalMs (value : Option String) : Int := Js.intOr (Js.parseInt (value.getD "")) 60000

/-- What `setTimeout` waits for: it takes a delay outside of its range for 1. -/
def timerDelay (intervalMs : Int) : Nat :=
  if 1 ≤ intervalMs ∧ intervalMs ≤ 2147483647 then intervalMs.toNat else 1

theorem timerDelay_positive (intervalMs : Int) : 0 < timerDelay intervalMs := by
  unfold timerDelay
  split <;> omega

structure TimedState where
  loop : LoopState
  now : Nat
  due : Nat → Nat

inductive TimedEvent (Answers : Type) where
  | tick (ms : Nat)
  | step (event : LoopEvent Answers)

/-- If the step arms a timer, then the next one. -/
def nextTimed (monitor : Monitor) (intervalMs : Int) (s : TimedState) :
    TimedEvent monitor.Answers → TimedState
  | .tick ms => {s with now := s.now + ms}
  | .step event =>
    {s with
      loop := nextLoop monitor s.loop event
      due := Function.update s.due s.loop.nextTimer (s.now + timerDelay intervalMs)}

def timedLoop (monitor : Monitor) (intervalMs : Int) :
    Machine TimedState (TimedEvent monitor.Answers) where
  init s := (loop monitor).init s.loop
  enabled s
    | .tick _ => True
    | .step event => (loop monitor).enabled s.loop event ∧
      ∀ timer, event = .fire timer → s.due timer ≤ s.now
  next := nextTimed monitor intervalMs

def LoopEvent.isFire {Answers : Type} : LoopEvent Answers → Bool
  | .fire _ => true
  | _ => false

def LoopEvent.isSettle {Answers : Type} : LoopEvent Answers → Bool
  | .settle _ => true
  | _ => false

/-- The loop has no business before a gap after the moment: no timer is due until then. -/
def Waits (gap moment : Nat) (s : TimedState) : Prop := ∀ timer ∈ s.loop.armed, moment + gap ≤ s.due timer

section Step

variable {monitor : Monitor} {interval : Int} {s : TimedState}

theorem armed_next {s : LoopState} (event : LoopEvent monitor.Answers) {timer : Nat}
    (armed : timer ∈ (nextLoop monitor s event).armed) : timer ∈ s.armed ∨ timer = s.nextTimer := by
  have scheduled {s : LoopState} (armed : timer ∈ (scheduleCheck s).armed) :
      timer ∈ s.armed ∨ timer = s.nextTimer := (List.mem_cons.mp armed).symm
  cases event with
  | init => exact scheduled armed
  | fire other => exact Or.inl (List.mem_of_mem_erase armed)
  | settle answers =>
    simp only [nextLoop] at armed
    split at armed
    · exact scheduled armed
    · exact Or.inl armed
  | destroy =>
    simp only [nextLoop,onModuleDestroy] at armed
    split at armed
    · exact Or.inl (List.mem_of_mem_erase armed)
    · exact Or.inl armed

theorem Waits.step {moment : Nat} (waits : Waits (timerDelay interval) moment s)
    (passed : moment ≤ s.now) (event : TimedEvent monitor.Answers) :
    Waits (timerDelay interval) moment (nextTimed monitor interval s event) := by
  cases event with
  | tick ms => exact waits
  | step event =>
    intro timer armed
    simp only [nextTimed]
    by_cases new : timer = s.loop.nextTimer
    · subst new
      rw [Function.update_self]
      exact Nat.add_le_add_right passed _
    · rw [Function.update_of_ne new]
      exact waits timer ((armed_next event armed).resolve_right new)

theorem waits_after (event : LoopEvent monitor.Answers) (phase : Phase s.loop)
    (enabled : (loop monitor).enabled s.loop event) (checks : event.isFire ∨ event.isSettle) :
    Waits (timerDelay interval) s.now (nextTimed monitor interval s (.step event)) := by
  intro timer armed
  have new : timer = s.loop.nextTimer := by
    cases event with
    | init => simp [LoopEvent.isFire,LoopEvent.isSettle] at checks
    | destroy => simp [LoopEvent.isFire,LoopEvent.isSettle] at checks
    | fire fired =>
      have due : fired ∈ s.loop.armed := enabled
      cases phase with
      | waiting other handle alone idle started =>
        obtain rfl : fired = other := by simpa [alone] using due
        simp [nextTimed,nextLoop,alone] at armed
      | checking unarmed busy started => simp [unarmed] at due
      | stopped unarmed idle => simp [unarmed] at due
    | settle answers =>
      have flying : 0 < s.loop.inFlight := enabled
      cases phase with
      | waiting other handle alone idle started => omega
      | checking unarmed busy started =>
        exact (armed_next (.settle answers) armed).resolve_left (by simp [unarmed])
      | stopped unarmed idle => omega
  subst new
  simp only [nextTimed]
  rw [Function.update_self]

end Step

section Runs

variable {monitor : Monitor} {interval : Int} (run : Run (timedLoop monitor interval))

def stepAt (sort : LoopEvent monitor.Answers → Bool) (j : Nat) : Bool :=
  (run.events[j]?).any (fun
    | .tick _ => false
    | .step event => sort event)

def moments (sort : LoopEvent monitor.Answers → Bool) (n : Nat) : List Nat :=
  ((List.range n).filter (stepAt run sort)).map (fun j => (run.state j).now)

/-- The checks that began in a window of `span` ms from `start`. -/
def checksWithin (start span n : Nat) : Nat :=
  (moments run LoopEvent.isFire n).countP (fun moment => start ≤ moment ∧ moment ≤ start + span)

/-- How many alerts the step at position `j` leaves sent: those of a check that resolves. -/
def alertsAt (j : Nat) : Nat :=
  match run.events[j]? with
  | some (.step (.settle answers)) =>
    match monitor.runCheck answers with
    | .ok alerts => alerts.length
    | .error _ => 0
  | _ => 0

def alertsWithin (start span n : Nat) : Nat :=
  (((List.range n).filter (fun j => start ≤ (run.state j).now ∧
    (run.state j).now ≤ start + span)).map (alertsAt run)).sum

variable {run}

theorem stepAt_happens {sort : LoopEvent monitor.Answers → Bool} {j : Nat}
    (found : stepAt run sort j = true) : ∃ event, run.Happens j (.step event) ∧ sort event = true := by
  obtain ⟨event,happens,good⟩ := (Option.any_eq_true ..).mp found
  cases event with
  | tick ms => contradiction
  | step event => exact ⟨event,happens,good⟩

theorem timed_clock : Monotone (fun i => (run.state i).now) := by
  refine run.monotone (fun s => s.now) (fun s event => ?_)
  cases event with
  | tick ms => exact Nat.le_add_right _ _
  | step event => exact Nat.le_refl _

theorem timed_phase (i : Nat) : Phase (run.state i).loop := by
  apply run.invariant (fun s => Phase s.loop)
  · intro s initial
    exact .stopped initial.2.1 initial.2.2.1
  · intro s event enabled phase
    cases event with
    | tick ms => exact phase
    | step event => exact phase_step event enabled.1 phase

theorem waits_run {k : Nat} {event : LoopEvent monitor.Answers} (happens : run.Happens k (.step event))
    (checks : event.isFire ∨ event.isSettle) : ∀ i, k + 1 ≤ i →
      Waits (timerDelay interval) (run.state k).now (run.state i) := by
  apply run.induct_from (k+1)
  · rw [run.state_succ happens]
    exact waits_after event (timed_phase k) (run.enabled happens).1 checks
  · intro i _ _ same ih
    rw [same]
    exact ih
  · intro i later bound _ same ih
    rw [same]
    exact ih.step (timed_clock (Nat.le_of_succ_le bound)) later

/-- A check that begins waits out the delay after each check that began or settled before. -/
theorem fire_waits {k j timer : Nat} {event : LoopEvent monitor.Answers}
    (happens : run.Happens k (.step event)) (checks : event.isFire ∨ event.isSettle) (later : k < j)
    (fires : run.Happens j (.step (.fire timer))) :
    (run.state k).now + timerDelay interval ≤ (run.state j).now := by
  obtain ⟨armed,due⟩ := run.enabled fires
  exact Nat.le_trans (waits_run happens checks j later timer armed) (due timer rfl)

/-- After a check settled, none is in flight before the delay has passed. -/
theorem flight_waits {k : Nat} {answers : monitor.Answers}
    (settles : run.Happens k (.step (.settle answers))) : ∀ i, k + 1 ≤ i →
      0 < (run.state i).loop.inFlight →
        (run.state k).now + timerDelay interval ≤ (run.state i).now := by
  apply run.induct_from (k+1)
  · intro flying
    rw [run.state_succ settles] at flying
    have before : 0 < (run.state k).loop.inFlight := (run.enabled settles).1
    have phase : Phase (run.state k).loop := timed_phase k
    cases phase with
    | waiting timer handle armed idle started => omega
    | checking unarmed busy started =>
      have after : (nextLoop monitor (run.state k).loop (.settle answers)).inFlight = 0 := by
        simp only [nextLoop]
        split <;> simp [scheduleCheck,busy]
      exact absurd flying (Nat.not_lt.mpr (Nat.le_of_eq after))
    | stopped unarmed idle => omega
  · intro i _ _ same ih
    rw [same]
    exact ih
  · intro i event bound happens same ih flying
    have clock : (run.state i).now ≤ (run.state (i+1)).now := timed_clock (Nat.le_succ i)
    rw [same] at flying
    cases event with
    | tick ms => exact Nat.le_trans (ih flying) clock
    | step event =>
      cases event with
      | fire timer => exact Nat.le_trans (fire_waits settles (Or.inr rfl) bound happens) clock
      | init => exact Nat.le_trans (ih flying) clock
      | settle other => exact Nat.le_trans (ih (run.enabled happens).1) clock
      | destroy =>
        refine Nat.le_trans (ih ?_) clock
        simp only [timedLoop,nextTimed,nextLoop,onModuleDestroy] at flying
        split at flying <;> exact flying

theorem moments_spaced (sort : LoopEvent monitor.Answers → Bool)
    (apart : ∀ k j event later, k < j → run.Happens k (.step event) → sort event = true →
      run.Happens j (.step later) → sort later = true →
        (run.state k).now + timerDelay interval ≤ (run.state j).now) (n : Nat) :
    Spaced (timerDelay interval) (moments run sort n) := by
  refine List.pairwise_map.mpr (List.pairwise_filter.mpr ?_)
  refine List.pairwise_lt_range.imp fun before first second => ?_
  obtain ⟨event,happens,good⟩ := stepAt_happens first
  obtain ⟨later,occurs,also⟩ := stepAt_happens second
  exact apart _ _ event later before happens good occurs also

theorem fires_spaced (n : Nat) : Spaced (timerDelay interval) (moments run LoopEvent.isFire n) := by
  refine moments_spaced _ (fun k j event later before happens fire occurs also => ?_) n
  cases later with
  | fire timer => exact fire_waits happens (Or.inl fire) before occurs
  | init | settle | destroy => simp [LoopEvent.isFire] at also

theorem settles_spaced (n : Nat) : Spaced (timerDelay interval) (moments run LoopEvent.isSettle n) := by
  refine moments_spaced _ (fun k j event later before happens settle occurs also => ?_) n
  cases event with
  | settle answers =>
    cases later with
    | settle others => exact flight_waits happens j before (run.enabled occurs).1
    | init | fire | destroy => simp [LoopEvent.isSettle] at also
  | init | fire | destroy => simp [LoopEvent.isSettle] at settle

theorem alertsAt_le {most : Nat} (bounded : ∀ answers alerts,
    monitor.runCheck answers = .ok alerts → alerts.length ≤ most) (j : Nat) :
    alertsAt run j ≤ if stepAt run LoopEvent.isSettle j then most else 0 := by
  unfold alertsAt stepAt
  split
  · rename_i answers found
    simp only [found,Option.any_some,LoopEvent.isSettle,if_true]
    split
    · rename_i alerts resolved
      exact bounded answers alerts resolved
    · exact Nat.zero_le _
  · exact Nat.zero_le _

theorem sum_alertsAt_le {most : Nat} (bounded : ∀ answers alerts,
    monitor.runCheck answers = .ok alerts → alerts.length ≤ most) (positions : List Nat) :
    (positions.map (alertsAt run)).sum ≤ most * positions.countP (stepAt run LoopEvent.isSettle) := by
  induction positions with
  | nil => exact Nat.zero_le _
  | cons j rest ih =>
    have own : alertsAt run j ≤ _ := alertsAt_le bounded j
    rw [List.map_cons,List.sum_cons,List.countP_cons,Nat.mul_add,Nat.add_comm]
    refine Nat.add_le_add ih ?_
    split at own
    · rename_i settles
      simpa [settles] using own
    · exact Nat.le_trans own (Nat.zero_le _)

end Runs

/-- In each window of `span` ms begins at most one check more than delays fit into it, and the
checks that end in it send at most `most` alerts each. -/
def Paced (monitor : Monitor) (interval : Int) (most : Nat) : Prop :=
  ∀ (run : Run (timedLoop monitor interval)) start span n,
    checksWithin run start span n ≤ span / timerDelay interval + 1 ∧
      alertsWithin run start span n ≤ most * (span / timerDelay interval + 1)

theorem paced_of_bounded {monitor : Monitor} (interval : Int) {most : Nat} (bounded : ∀ answers alerts,
    monitor.runCheck answers = .ok alerts → alerts.length ≤ most) : Paced monitor interval most := by
  intro run start span n
  have positive := timerDelay_positive interval
  refine ⟨(fires_spaced n).countP_le positive start span,?_⟩
  refine Nat.le_trans (sum_alertsAt_le bounded _) (Nat.mul_le_mul_left most ?_)
  have spaced : Spaced (timerDelay interval) (moments run LoopEvent.isSettle n) := settles_spaced n
  have settles := spaced.countP_le positive start span
  rw [moments,List.countP_map,List.countP_filter] at settles
  rw [List.countP_filter]
  refine Nat.le_trans (Nat.le_of_eq (List.countP_congr fun j _ => ?_)) settles
  simp [and_comm]

theorem alertIf_length (exceeded : Prop) [Decidable exceeded] (alert : Alert) :
    (if exceeded then [alert] else []).length ≤ 1 := by
  split <;> simp

theorem QueueMonitor.alerts_length (queue : QueueMonitor) (answers : QueueAnswers)
    (alerts : List Alert) (resolved : queue.runCheck answers = .ok alerts) : alerts.length ≤ 2 := by
  obtain ⟨⟨waitingCount,waiting⟩,failedCount,failed⟩ := (queue.runCheck_resolves answers).mp ⟨_,resolved⟩
  simp only [QueueMonitor.runCheck,waiting,failed,bind,Except.bind] at resolved
  split at resolved
  · contradiction
  · split at resolved
    · contradiction
    · obtain rfl := Except.ok.inj resolved
      rw [List.length_append]
      exact Nat.add_le_add (alertIf_length ..) (alertIf_length ..)

theorem SecurityMonitor.alerts_length (security : SecurityMonitor) (answers : SecurityAnswers)
    (alerts : List Alert) (resolved : security.runCheck answers = .ok alerts) : alerts.length ≤ 2 := by
  simp only [SecurityMonitor.runCheck,bind,Except.bind] at resolved
  split at resolved
  · contradiction
  · obtain rfl := Except.ok.inj resolved
    rw [SecurityMonitor.alerts,List.length_append]
    exact Nat.add_le_add (alertIf_length ..) (alertIf_length ..)

theorem check5xxRate_length (app : AppMonitor) (metricsJson : List MetricJson) :
    (check5xxRate app metricsJson).length ≤ 1 := by
  unfold check5xxRate
  split
  · exact Nat.zero_le _
  · split
    · exact Nat.zero_le _
    · split
      split
      · exact Nat.zero_le _
      · exact alertIf_length ..

theorem checkLatencyP95_length (app : AppMonitor) (metricsJson : List MetricJson) :
    (checkLatencyP95 app metricsJson).length ≤ 1 := by
  unfold checkLatencyP95
  split
  · exact Nat.zero_le _
  · split
    · exact Nat.zero_le _
    · split
      · exact Nat.zero_le _
      · exact alertIf_length ..

theorem checkRedisLatency_length (app : AppMonitor) (ping : Option (Except String Int)) :
    (checkRedisLatency app ping).length ≤ 1 := by
  unfold checkRedisLatency
  split
  · exact Nat.zero_le _
  · exact Nat.zero_le _
  · exact alertIf_length ..

theorem AppMonitor.alerts_length (app : AppMonitor) (answers : AppAnswers) (alerts : List Alert)
    (resolved : app.runCheck answers = .ok alerts) : alerts.length ≤ 4 := by
  obtain ⟨metricsJson,read⟩ := (app.runCheck_resolves answers).mp ⟨_,resolved⟩
  simp only [AppMonitor.runCheck,read,bind,Except.bind] at resolved
  split at resolved
  · contradiction
  · split at resolved
    · contradiction
    · obtain rfl := Except.ok.inj resolved
      have rate := check5xxRate_length app metricsJson
      have latency := checkLatencyP95_length app metricsJson
      have redis := checkRedisLatency_length app answers.ping
      have memory : (checkMemory app answers.heapUsed answers.heapSizeLimit).length ≤ 1 :=
        alertIf_length ..
      simp only [List.length_append]
      omega

/-- Whatever the settings and the answers, a slow check included, the monitors neither check nor
alert faster than their interval allows. -/
theorem monitors_paced (queue : QueueMonitor) (app : AppMonitor) (security : SecurityMonitor)
    (value : Option String) : Paced queue.monitor (intervalMs value) 2 ∧
      Paced app.monitor (intervalMs value) 4 ∧ Paced security.monitor (intervalMs value) 2 :=
  ⟨paced_of_bounded _ queue.alerts_length,paced_of_bounded _ app.alerts_length,
    paced_of_bounded _ security.alerts_length⟩

/-- An interval above the range of `setTimeout` makes a check a millisecond possible. -/
example : timerDelay (intervalMs none) = 60000 ∧ timerDelay (intervalMs (some "3000000000")) = 1 := by
  decide

end TribeHub.Observability
