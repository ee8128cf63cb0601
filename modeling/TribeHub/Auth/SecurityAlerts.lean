import TribeHub.Auth.BearerTokens
import TribeHub.Library.Simulation
import TribeHub.Observability.SecurityWindow

/-! Logins and guarded requests as what feeds SecurityMonitorService. AuthService.login stops
once, at its await; the guard never does. The monitor sees their failures and nothing else. -/
namespace TribeHub.Auth
open Observability Transition

variable {Session : Type}

structure LoginData where
  email : String
  password : String

inductive SignInOutcome (Session : Type) where
  | signedIn (data : Session)
  | error (message : String)
  | rejected (rejection : Rejection)

structure LoginResult (Session : Type) where
  outcome : Except Rejection Session
  recordedFailedLogin : Bool

/-- AuthService.login from its await on. -/
def settleSignIn : SignInOutcome Session → LoginResult Session
  | .signedIn data => ⟨.ok data,false⟩
  | .error message => ⟨.error (.error message),true⟩
  | .rejected rejection => ⟨.error rejection,false⟩

inductive LoginResponse (Session : Type) where
  | success (data : Session) (message : String)
  | badRequest (code message : String)

/-- AuthController.login: its `catch` answers 400 whatever was thrown. -/
def loginResponse : Except Rejection Session → LoginResponse Session
  | .ok data => .success data "Login successful"
  | .error (.error message) => .badRequest "LOGIN_ERROR" message
  | .error .other => .badRequest "LOGIN_ERROR" "Unknown error"

inductive LoginPc (Session : Type) where
  | signIn (data : LoginData)
  | answered (response : LoginResponse Session)

def beginLogin (config : SupabaseConfig) (data : LoginData) : LoginPc Session :=
  match getSupabaseClient config with
  | .ok () => .signIn data
  | .error rejection => .answered (loginResponse (.error rejection))

structure AccessState (Session : Type) where
  security : SecurityState
  logins : Nat → Option (LoginPc Session)

def AccessState.setLogin (s : AccessState Session) (call : Nat) (pc : LoginPc Session) :
    AccessState Session := {s with logins := Function.update s.logins call (some pc)}

inductive AccessEvent (Session : Type) where
  | clock (time : Int)
  | login (call : Nat) (data : LoginData)
  | signIn (call : Nat) (outcome : SignInOutcome Session)
  | request (authHeader : Option String)
  | runCheck (check : Nat)
  | resume (check : Nat)

structure Access where
  config : SupabaseConfig
  guardSecret : Option String
  verifier : Verifier
  monitor : SecurityMonitor

namespace Access

variable (access : Access)

def next (s : AccessState Session) : AccessEvent Session → AccessState Session
  | .clock time => {s with security := {s.security with now := time}}
  | .login call data => s.setLogin call (beginLogin access.config data)
  | .signIn call outcome =>
    let result := settleSignIn outcome
    let s := s.setLogin call (.answered (loginResponse result.outcome))
    if result.recordedFailedLogin then {s with security := recordFailedLogin s.security none} else s
  | .request authHeader =>
    let result := SupabaseAuthGuard.canActivate access.guardSecret access.verifier authHeader
    if result.recordedInvalidToken then {s with security := recordInvalidToken s.security none} else s
  | .runCheck check => {s with security := nextSecurity access.monitor s.security (.runCheck check)}
  | .resume check => {s with security := nextSecurity access.monitor s.security (.resume check)}

def machine (Session : Type) : Machine (AccessState Session) (AccessEvent Session) where
  init s := SecurityInitial s.security ∧ ∀ call, s.logins call = none
  enabled s
    | .login call _ => s.logins call = none
    | .signIn call _ => ∃ data, s.logins call = some (.signIn data)
    | .runCheck check => s.security.checks check = none
    | _ => True
  next := access.next

/-- The token of the header that `verify` refuses under the secret of the guard. -/
def refuses (authHeader : Option String) : Bool :=
  match bearerToken authHeader with
  | none => false
  | some token =>
    token ≠ "" ∧ ¬missing access.guardSecret ∧
      (access.verifier.verify token (access.guardSecret.getD "")).toOption.isNone

/-- The guard records what its `verify` refuses, and not the requests it turns away unverified. -/
theorem canActivate_recorded (authHeader : Option String) :
    (SupabaseAuthGuard.canActivate access.guardSecret access.verifier authHeader).recordedInvalidToken =
      access.refuses authHeader := by
  unfold SupabaseAuthGuard.canActivate refuses
  cases carried : bearerToken authHeader with
  | none => rfl
  | some token =>
    by_cases empty : token = ""
    · simp [empty]
    · cases unset : missing access.guardSecret with
      | true => simp [empty]
      | false =>
        cases verified : access.verifier.verify token (access.guardSecret.getD "") with
        | error thrown => simp [empty,verified,Except.toOption]
        | ok decoded => simp [empty,verified,Except.toOption]

def failed : Kind → AccessEvent Session → Bool
  | .failedLogin,.signIn _ (.error _) => true
  | .invalidToken,.request authHeader => access.refuses authHeader
  | _,_ => false

def resumes (id : Nat) : AccessEvent Session → Bool
  | .resume check => check = id
  | _ => false

/-- What the monitor sees of an event: a failure, a step of a check, or only the time. -/
def observed (s : AccessState Session) : AccessEvent Session → SecurityEvent
  | .clock time => .clock time
  | .login _ _ => .clock s.security.now
  | .signIn call outcome =>
    if access.failed .failedLogin (.signIn call outcome) then .record .failedLogin none
    else .clock s.security.now
  | .request authHeader =>
    if access.refuses authHeader then .record .invalidToken none else .clock s.security.now
  | .runCheck check => .runCheck check
  | .resume check => .resume check

def monitored : Projection (access.machine Session) (securityMachine access.monitor) where
  state := AccessState.security
  event := access.observed
  init _ initial := initial.1
  enabled s event enabled := by
    cases event with
    | runCheck check => exact enabled
    | signIn call outcome =>
      simp only [observed]
      split <;> trivial
    | request authHeader =>
      simp only [observed]
      split <;> trivial
    | clock | login | resume => trivial
  next s event _ := by
    cases event with
    | signIn call outcome => cases outcome <;> rfl
    | request authHeader =>
      simp only [machine,next,observed,canActivate_recorded]
      split <;> rfl
    | clock | login | runCheck | resume => rfl

section Runs

variable {access} (run : Run (access.machine Session))

def Forward : Prop := ∀ i time, run.Happens i (.clock time) → (run.state i).security.now ≤ time

def failedAt (kind : Kind) (j : Nat) : Bool := (run.events[j]?).any (access.failed kind)

/-- The failures of a kind before position `i`, of the five minutes that end there. -/
def recentFailures (kind : Kind) (i : Nat) : Nat :=
  (List.range i).countP (fun j => failedAt run kind j ∧
    (run.state i).security.now - windowMs ≤ (run.state j).security.now)

/-- How many alerts of the check that begins at `begun` have been sent before position `i`. -/
def alertsSent (id begun i : Nat) : Nat :=
  (List.range i).countP (fun j => begun < j ∧ (run.events[j]?).any (resumes id))

variable {run}

theorem observed_record {s : AccessState Session} {event : AccessEvent Session} {kind : Kind}
    {timestamp : Option Int} :
    access.observed s event = .record kind timestamp ↔
      access.failed kind event = true ∧ timestamp = none := by
  cases event with
  | signIn call outcome => cases outcome <;> cases kind <;> simp [observed,failed,eq_comm]
  | request authHeader =>
    cases refused : access.refuses authHeader <;> cases kind <;>
      simp [observed,failed,refused,eq_comm]
  | clock | login | runCheck | resume => cases kind <;> simp [observed,failed]

theorem monitored_punctual (forward : Forward run) : Punctual (access.monitored.run run) := by
  intro i event happens
  obtain ⟨source,occurs,rfl⟩ := access.monitored.run_happens run |>.mp happens
  refine ⟨fun time same => ?_,fun kind timestamp same => (observed_record.mp same).2⟩
  rw [access.monitored.run_state]
  cases source with
  | clock later =>
    obtain rfl := SecurityEvent.clock.inj same
    exact forward i _ occurs
  | login call data => exact le_of_eq (SecurityEvent.clock.inj same)
  | signIn call outcome =>
    simp only [monitored,observed] at same
    split at same
    · contradiction
    · exact le_of_eq (SecurityEvent.clock.inj same)
  | request authHeader =>
    simp only [monitored,observed] at same
    split at same
    · contradiction
    · exact le_of_eq (SecurityEvent.clock.inj same)
  | runCheck check => contradiction
  | resume check => contradiction

theorem recordedAt_failed (kind : Kind) (j : Nat) :
    recordedAt (access.monitored.run run) kind j =
      if failedAt run kind j then [(run.state j).security.now] else [] := by
  cases failure : failedAt run kind j with
  | true =>
    obtain ⟨event,found,fails⟩ := (Option.any_eq_true ..).mp failure
    have happens : (access.monitored.run run).Happens j (.record kind none) :=
      access.monitored.run_happens run |>.mpr ⟨event,found,observed_record.mpr ⟨fails,rfl⟩⟩
    rw [recordedAt_record happens,access.monitored.run_state,if_pos rfl,if_pos rfl]
    rfl
  | false =>
    unfold recordedAt
    split
    · rename_i other timestamp found
      obtain ⟨event,occurs,seen⟩ := access.monitored.run_happens run |>.mp found
      have apart : other ≠ kind := by
        intro same
        subst same
        have fails : failedAt run other j = true :=
          (Option.any_eq_true ..).mpr ⟨event,occurs,(observed_record.mp seen).1⟩
        rw [failure] at fails
        contradiction
      simp [apart]
    · rfl

theorem windowCount_failures (kind : Kind) (i : Nat) :
    windowCount (access.monitored.run run) kind i = min maxTimestamps (recentFailures run kind i) := by
  have counted (cutoff : Int) (n : Nat) :
      (history (access.monitored.run run) kind n).countP (fun timestamp => cutoff ≤ timestamp) =
        (List.range n).countP (fun j => failedAt run kind j ∧ cutoff ≤ (run.state j).security.now) := by
    induction n with
    | zero => rfl
    | succ n ih =>
      rw [history_succ,List.countP_append,ih,List.range_succ,List.countP_append,recordedAt_failed]
      cases failure : failedAt run kind n <;> simp [failure,List.countP_singleton]
  unfold windowCount recentFailures
  rw [access.monitored.run_state]
  exact congrArg (min maxTimestamps) (counted _ i)

theorem observed_resume {s : AccessState Session} {event : AccessEvent Session} {id : Nat} :
    access.observed s event = .resume id ↔ resumes id event = true := by
  cases event with
  | signIn call outcome => cases outcome <;> simp [observed,failed,resumes]
  | request authHeader => cases refused : access.refuses authHeader <;> simp [observed,refused,resumes]
  | clock | login | runCheck | resume => simp [observed,resumes]

theorem resumedAt_monitored (id j : Nat) :
    resumedAt (access.monitored.run run) id j = (run.events[j]?).any (resumes id) := by
  cases resumed : (run.events[j]?).any (resumes id) with
  | true =>
    obtain ⟨event,found,own⟩ := (Option.any_eq_true ..).mp resumed
    have happens : (access.monitored.run run).Happens j (.resume id) :=
      access.monitored.run_happens run |>.mpr ⟨event,found,observed_resume.mpr own⟩
    rw [resumedAt_resume happens,decide_eq_true rfl]
  | false =>
    unfold resumedAt
    split
    · rename_i other found
      obtain ⟨event,occurs,seen⟩ := access.monitored.run_happens run |>.mp found
      apply decide_eq_false
      intro same
      subst same
      have own : (run.events[j]?).any (resumes other) = true :=
        (Option.any_eq_true ..).mpr ⟨event,occurs,observed_resume.mp seen⟩
      rw [resumed] at own
      contradiction
    · rfl

theorem resumes_monitored (id begun i : Nat) :
    Observability.resumes (access.monitored.run run) id begun i = alertsSent run id begun i := by
  simp only [Observability.resumes,resumedAt_monitored,alertsSent]

/-- Each check counts the failed logins and the refused tokens of its last five minutes, up to
the cap, and alerts where they exceed the threshold; a threshold at the cap is never exceeded. It
is resolved as soon as the alerts that it has for these counts have been sent. -/
theorem alerts_count_failures (forward : Forward run) {begun id i : Nat}
    (begins : run.Happens begun (.runCheck id)) (later : begun < i) :
    ∃ check, (run.state i).security.checks id = some check ∧
      (∀ kind, check.count kind = min maxTimestamps (recentFailures run kind begun)) ∧
        check.sent = (access.monitor.alerts check.count).take (alertsSent run id begun i + 1) ∧
        (check.pc = .resolved ↔ (access.monitor.alerts check.count).length ≤ alertsSent run id begun i) ∧
        (check.pc = .resolved → check.sent = access.monitor.alerts check.count ∧ ∀ kind,
          access.monitor.alertFor kind (check.count kind) ∈ check.sent ↔
            access.monitor.threshold kind < recentFailures run kind begun ∧
              access.monitor.threshold kind < maxTimestamps) := by
  have happens : (access.monitored.run run).Happens begun (.runCheck id) :=
    access.monitored.run_happens run |>.mpr ⟨_,begins,rfl⟩
  obtain ⟨check,found,handed,count⟩ := reports_run (monitored_punctual forward) happens i later
  rw [access.monitored.run_state] at found
  rw [resumes_monitored] at handed
  have exact_count (kind : Kind) : check.count kind = min maxTimestamps (recentFailures run kind begun) :=
    (count kind).trans (windowCount_failures kind begun)
  refine ⟨check,found,exact_count,handed.sent,handed.resolved,fun resolved => ?_⟩
  have sent := handed.sent_all resolved
  refine ⟨sent,fun kind => ?_⟩
  rw [sent,access.monitor.alertFor_mem,exact_count kind]
  omega

end Runs
end Access

/-- Supabase refuses two logins and the guard three tokens; a request without a token is not
counted. The logins exceed their threshold, the tokens reach theirs. -/
def attacked : Run ((⟨tribe,some "secret",⟨fun _ _ => .error none,fun _ => ⟨_,rfl⟩⟩,
    .fromEnv (some "https://discord") (some "1") (some "3")⟩ : Access).machine Unit) where
  start := ⟨⟨0,[],[],fun _ => none⟩,fun _ => none⟩
  events := [.login 0 ⟨"a@tribe","secret1"⟩,.request (some "Bearer forged"),.request none,
    .login 1 ⟨"a@tribe","secret2"⟩,.signIn 0 (.error "Invalid login credentials"),
    .request (some "Bearer forged"),.signIn 1 (.error "Invalid login credentials"),
    .request (some "Bearer forged"),.clock 60000,.runCheck 0,.resume 0]
  starts := ⟨⟨rfl,rfl,fun _ => rfl⟩,fun _ => rfl⟩
  legal := ⟨rfl,trivial,trivial,rfl,⟨_,rfl⟩,trivial,⟨_,rfl⟩,trivial,trivial,rfl,trivial,trivial⟩

theorem attacked_forward : Access.Forward attacked := by
  intro i time happens
  obtain ⟨bound,equal⟩ := List.getElem?_eq_some_iff.mp happens
  have bound : i < 11 := bound
  interval_cases i <;> cases equal
  decide

theorem attacked_counted : ∃ check, (attacked.state 11).security.checks 0 = some check ∧
    check.pc = .resolved ∧ check.count .failedLogin = 2 ∧ check.count .invalidToken = 3 ∧
      check.sent.map (fun alert => alert.payload.metric) = ["brute_force_login"] := by
  have begins : attacked.Happens 9 (.runCheck 0) := rfl
  obtain ⟨check,found,count,_,resolved,sent⟩ :=
    Access.alerts_count_failures (i := 11) attacked_forward begins (by decide)
  have counts : check.count = fun kind => if kind = .failedLogin then 2 else 3 :=
    funext (fun kind => by rw [count]; cases kind <;> decide)
  have done : check.pc = .resolved := resolved.mpr (by rw [counts]; decide)
  refine ⟨check,found,done,?_,?_,?_⟩
  · rw [counts]
    rfl
  · rw [counts]
    rfl
  · rw [(sent done).1,counts]
    decide

end TribeHub.Auth
