import Mathlib.Tactic.IntervalCases
import TribeHub.Auth.Register

/-! Concurrent registrations that share an email or a username. The unique indexes let
at most one of them succeed. The pre-checks and the constraint answer the losers 409;
the error of a sign-up that finds the account of another call becomes a 400. -/
namespace TribeHub.Auth
open Transition

/-- A sign-up for an email that already has an account is not answered with a user. -/
def RefusesKnown (supabase : Supabase) : Prop :=
  ∀ accounts data outcome, supabase accounts data outcome → Registered accounts data.email →
    ∀ id, outcome.reply ≠ .user id

theorem autoConfirm_refuses : RefusesKnown autoConfirm := by
  intro accounts data outcome allowed registered id answered
  rcases allowed with ⟨_,rfl⟩ | ⟨free,_⟩
  · contradiction
  · exact free registered

/-- No query, sign-up or hash of the event fails by itself: an error of the sign-up is about the
email that has an account. -/
def Faultless (s : State) : Event → Prop
  | .register _ _ => True
  | .findByEmail _ outcome => outcome = .ok ()
  | .findByUsername _ outcome => outcome = .ok ()
  | .signUp call outcome => (∃ id, outcome.reply = .user id) ∨
    ((∃ message, outcome.reply = .error message) ∧
      ∃ record, s.calls call = some record ∧ Registered s.accounts record.data.email)
  | .hash _ outcome => ∃ passwordHash, outcome = .ok passwordHash
  | .create _ _ _ outcome => outcome = .done

def Shares (data other : RegisterRequest) : Prop :=
  data.email = other.email ∨ data.username = other.username

def OneSucceeded (s : State) : Prop :=
  ∀ call other data otherData user otherUser, s.calls call = some ⟨data,.returned user⟩ →
    s.calls other = some ⟨otherData,.returned otherUser⟩ → Shares data otherData → call = other

section Runs

variable {config : SupabaseConfig} {supabase : Supabase} (run : Run (machine config supabase))

/-- Neither store uses an email or username of the requests of the run. -/
def FreshValues : Prop :=
  ∀ i call data, run.Happens i (.register call data) →
    (∀ user ∈ run.start.users.rows, user.email ≠ data.email ∧ user.username ≠ data.username) ∧
      ∀ account ∈ run.start.accounts, account.email ≠ data.email

/-- The call has failed although each of its own steps went well. -/
def Loses (call i : Nat) (error : Thrown) : Prop :=
  (∃ data, (run.state i).calls call = some ⟨data,.threw error⟩) ∧
    ∀ j event, j < i → run.Happens j event → event.call = call → Faultless (run.state j) event

def LosersAnswered409 : Prop :=
  ∀ call i error, Loses run call i error → (errorResponse error).status = 409

/-- No sign-up of the run that Supabase answers meets an email that already has an account. -/
def NoRepeatedSignUp : Prop :=
  ∀ i call outcome data, run.Happens i (.signUp call outcome) →
    (∀ rejection, outcome.reply ≠ .rejected rejection) →
      (run.state i).calls call = some ⟨data,.signUp⟩ → ¬Registered (run.state i).accounts data.email

/-- At every moment at most one call with a given value has succeeded, and every call that
lost to another was answered with a conflict. -/
def ConflictsAnswered : Prop := (∀ i, OneSucceeded (run.state i)) ∧ LosersAnswered409 run

end Runs

def RowsOfReturned (s : State) : Prop :=
  ∀ call data user, s.calls call = some ⟨data,.returned user⟩ →
    ∃ row ∈ s.users.rows, row.email = data.email ∧ row.username = data.username

section Step

variable {config : SupabaseConfig} {supabase : Supabase} {s t : State} {event : Event}

theorem SignUpReply.going {reply : SignUpReply} {user : PublicUser} : reply.pc ≠ .returned user := by
  cases reply <;> simp [SignUpReply.pc]

theorem Move.returned (move : Move config supabase s event t) {call : Nat} {data : RegisterRequest}
    {user : PublicUser} (found : t.calls call = some ⟨data,.returned user⟩) :
    s.calls call = some ⟨data,.returned user⟩ ∨
      (∃ row ∈ t.users.rows, row.email = data.email ∧ row.username = data.username) ∧
        (∀ row ∈ s.users.rows, row.email ≠ data.email ∧ row.username ≠ data.username) ∧
          ∀ other, other ≠ call → t.calls other = s.calls other := by
  rcases move.entered found with before | ⟨owner,entered⟩
  · exact Or.inl before
  · generalize reached : RegisterPc.returned user = pc at entered
    cases entered with
    | begun data unused => contradiction
    | stopped data pc event error waiting reason => contradiction
    | advanced data pc event after waiting step => cases step <;> contradiction
    | signedUp data id reply waiting allowed unused grown => exact absurd reached.symm SignUpReply.going
    | inserted data supabaseUserId passwordHash id now event after waiting created step =>
      obtain ⟨rows,free⟩ := create_some created
      have inserted : (userData data supabaseUserId passwordHash).row id now ∈ t.users.rows := by
        simp [rows]
      exact Or.inr ⟨⟨_,inserted,rfl,rfl⟩,free,fun other distinct => move.others (owner ▸ distinct)⟩

theorem rowsOfReturned_step (rows : RowsOfReturned s) (move : Move config supabase s event t) :
    RowsOfReturned t := by
  intro call data user found
  rcases move.returned found with before | ⟨inserted,_⟩
  · obtain ⟨row,present,same⟩ := rows call data user before
    exact ⟨row,move.row_stays present,same⟩
  · exact inserted

theorem oneSucceeded_step (rows : RowsOfReturned s) (one : OneSucceeded s)
    (move : Move config supabase s event t) : OneSucceeded t := by
  have clashes {call other : Nat} {data otherData : RegisterRequest} {otherUser : PublicUser}
      (free : ∀ row ∈ s.users.rows, row.email ≠ data.email ∧ row.username ≠ data.username)
      (kept : ∀ other, other ≠ call → t.calls other = s.calls other)
      (second : t.calls other = some ⟨otherData,.returned otherUser⟩)
      (shares : Shares data otherData) : other = call := by
    by_contra distinct
    rw [kept other distinct] at second
    obtain ⟨row,present,email,username⟩ := rows other otherData otherUser second
    obtain ⟨freeEmail,freeUsername⟩ := free row present
    rcases shares with same | same
    · exact freeEmail (email.trans same.symm)
    · exact freeUsername (username.trans same.symm)
  intro call other data otherData user otherUser first second shares
  rcases move.returned first with before | ⟨_,free,kept⟩
  · rcases move.returned second with earlier | ⟨_,free,kept⟩
    · exact one call other data otherData user otherUser before earlier shares
    · exact clashes free kept first (shares.imp Eq.symm Eq.symm)
  · exact (clashes free kept second shares).symm

/-- What stopped a call without a fault: a row, a unique index or the account of its email. -/
inductive Taken (s : State) (call : Nat) (data : RegisterRequest) : RegisterPc → Event → Thrown → Prop
  | row (pc event error) (status : (errorResponse error).status = 409) (user) (present : user ∈ s.users.rows)
      (same : user.email = data.email ∨ user.username = data.username) : Taken s call data pc event error
  | index (supabaseUserId passwordHash id now error) (status : (errorResponse error).status = 409)
      (refused : create s.users (userData data supabaseUserId passwordHash) id now = none) :
      Taken s call data (.create supabaseUserId passwordHash) (.create call id now .done) error
  | account (outcome message error) (registered : Registered s.accounts data.email)
      (answered : outcome.reply = .error message) :
      Taken s call data .signUp (.signUp call outcome) error

theorem error_registered {call : Nat} {data : RegisterRequest} {outcome : SignUpOutcome} {message : String}
    (waiting : s.calls call = some ⟨data,.signUp⟩) (answered : outcome.reply = .error message)
    (faultless : Faultless s (.signUp call outcome)) : Registered s.accounts data.email := by
  rcases faultless with ⟨id,user⟩ | ⟨_,record,found,registered⟩
  · rw [answered] at user
    contradiction
  · obtain rfl := Option.some.inj (waiting.symm.trans found)
    exact registered

theorem not_rejected {call : Nat} {outcome : SignUpOutcome} {rejection : Rejection}
    (faultless : Faultless s (.signUp call outcome)) : outcome.reply ≠ .rejected rejection := by
  rcases faultless with ⟨id,user⟩ | ⟨⟨message,error⟩,_⟩ <;> simp_all

theorem Stops.taken {call : Nat} {data : RegisterRequest} {pc : RegisterPc} {error : Thrown}
    (configured : getSupabaseClient config = .ok ()) (waiting : s.calls call = some ⟨data,pc⟩)
    (faultless : Faultless s event) (reason : Stops config s call data pc event error) :
    Taken s call data pc event error := by
  cases reason with
  | emailInUse user found =>
    have same : user.email = data.email ∧ user.deletedAt = none := by
      simpa using List.find?_some found
    exact .row _ _ _ rfl user (List.mem_of_find?_eq_some found) (Or.inl same.1)
  | usernameInUse user found =>
    have same : user.username = data.username ∧ user.deletedAt = none := by
      simpa using List.find?_some found
    exact .row _ _ _ rfl user (List.mem_of_find?_eq_some found) (Or.inr same.1)
  | constraint supabaseUserId passwordHash id now refused =>
    exact .index supabaseUserId passwordHash id now _ rfl refused
  | refused message => exact .account _ message _ (error_registered waiting rfl faultless) rfl
  | unconfigured rejection absent =>
    rw [configured] at absent
    contradiction
  | emailQuery rejection => cases faultless
  | usernameQuery rejection => cases faultless
  | signUpFailed rejection => exact absurd rfl (not_rejected faultless)
  | hashFailed supabaseUserId rejection =>
    obtain ⟨_,equal⟩ := faultless
    contradiction
  | createFailed supabaseUserId passwordHash id now executed code kept => cases faultless

/-- Without a fault a call is stopped by what another registration has taken. -/
theorem Entered.taken {call : Nat} {data : RegisterRequest} {error : Thrown}
    (configured : getSupabaseClient config = .ok ()) (faultless : Faultless s event)
    (entered : Entered config supabase s t call event ⟨data,.threw error⟩) :
    ∃ pc, s.calls call = some ⟨data,pc⟩ ∧ pc.passed < 5 ∧ Taken s call data pc event error := by
  generalize reached : RegisterPc.threw error = pc at entered
  cases entered with
  | begun data unused => contradiction
  | stopped data pc event other waiting reason =>
    obtain rfl := RegisterPc.threw.inj reached
    exact ⟨pc,waiting,reason.call_eq.2,reason.taken configured waiting faultless⟩
  | advanced data pc event after waiting step => cases step <;> contradiction
  | signedUp data id reply waiting allowed unused grown =>
    cases reply with
    | user id => contradiction
    | rejected rejection => exact absurd rfl (not_rejected faultless)
    | error message =>
      have registered := error_registered waiting rfl faultless
      exact ⟨.signUp,waiting,by simp [RegisterPc.passed],.account _ message error registered rfl⟩
  | inserted data supabaseUserId passwordHash id now event after waiting created step =>
    cases step with
    | done => contradiction
    | lost code => cases faultless

theorem Entered.faultless {call : Nat} {data : RegisterRequest} {pc : RegisterPc}
    (entered : Entered config supabase s t call event ⟨data,pc⟩) (going : ∀ error, pc ≠ .threw error) :
    Faultless s event := by
  cases entered with
  | begun data unused => trivial
  | stopped data pc event error waiting reason => exact absurd rfl (going error)
  | advanced data before event after waiting step =>
    cases step with
    | emailFree free => rfl
    | usernameFree free => rfl
    | answered supabaseUserId => exact Or.inl ⟨supabaseUserId,rfl⟩
    | hashed supabaseUserId passwordHash => exact ⟨passwordHash,rfl⟩
  | signedUp data id reply waiting allowed unused grown =>
    cases reply with
    | user id => exact Or.inl ⟨id,rfl⟩
    | error message => exact absurd rfl (going _)
    | rejected rejection => exact absurd rfl (going _)
  | inserted data supabaseUserId passwordHash id now event after waiting created step =>
    cases step with
    | done => rfl
    | lost code => exact absurd rfl (going _)

end Step

section Runs

variable {config : SupabaseConfig} {supabase : Supabase} (run : Run (machine config supabase))

theorem oneSucceeded_run (i : Nat) : OneSucceeded (run.state i) := by
  suffices both : RowsOfReturned (run.state i) ∧ OneSucceeded (run.state i) from both.2
  apply run.invariant (fun s => RowsOfReturned s ∧ OneSucceeded s)
  · intro s initial
    constructor
    · intro call data user found
      rw [initial call] at found
      contradiction
    · intro call other data otherData user otherUser found
      rw [initial call] at found
      contradiction
  · intro s event enabled holds
    have move := next_move config supabase s event enabled
    exact ⟨rowsOfReturned_step holds.1 move,oneSucceeded_step holds.1 holds.2 move⟩

theorem faultless_run {i call : Nat} {data : RegisterRequest} {pc : RegisterPc}
    (found : (run.state i).calls call = some ⟨data,pc⟩) (going : ∀ error, pc ≠ .threw error)
    (j : Nat) (event : Event) (earlier : j < i) (happens : run.Happens j event)
    (owner : event.call = call) : Faultless (run.state j) event := by
  subst owner
  obtain ⟨record,past,entered⟩ := (run_move run happens).moved
  apply entered.faultless
  -- Had it thrown at this step, it would still be where it stopped.
  intro error equal
  have stayed := ended_run run past (by rw [equal]; rfl) i earlier
  obtain rfl := Option.some.inj (found.symm.trans stayed)
  exact going error equal

/-- A loser was stopped at one of its own steps, by what another registration had taken. -/
theorem loses_taken (configured : getSupabaseClient config = .ok ()) {call i : Nat} {error : Thrown}
    (loses : Loses run call i error) :
    ∃ j data pc event, j < i ∧ run.Happens j event ∧ pc.passed < 5 ∧
      (run.state j).calls call = some ⟨data,pc⟩ ∧ Taken (run.state j) call data pc event error := by
  obtain ⟨⟨data,found⟩,own⟩ := loses
  obtain ⟨j,earlier,event,happens,owner,entered⟩ := entered_at run i call _ found
  obtain ⟨pc,waiting,suspended,taken⟩ := entered.taken configured (own j event earlier happens owner)
  exact ⟨j,data,pc,event,earlier,happens,suspended,waiting,taken⟩

theorem losers_answered (configured : getSupabaseClient config = .ok ())
    (once : NoRepeatedSignUp run) : LosersAnswered409 run := by
  intro call i error loses
  obtain ⟨j,data,pc,event,_,happens,_,waiting,taken⟩ := loses_taken run configured loses
  cases taken with
  | row pc event error status user present same => exact status
  | index supabaseUserId passwordHash id now error status refused => exact status
  | account outcome message error registered answered =>
    exact absurd registered (once j call outcome data happens (by simp [answered]) waiting)

/-- A call whose sign-up meets the account of another call loses without a fault of its
own, and its plain Error becomes a 400. -/
theorem repeated_signUp_loses {i call : Nat} {outcome : SignUpOutcome} {message : String}
    {data : RegisterRequest} (happens : run.Happens i (.signUp call outcome))
    (answered : outcome.reply = .error message) (waiting : (run.state i).calls call = some ⟨data,.signUp⟩)
    (taken : Registered (run.state i).accounts data.email) :
    Loses run call (i+1) (.rejected (.error message)) := by
  have moved : (run.state (i+1)).calls call = some ⟨data,.threw (.rejected (.error message))⟩ := by
    rw [run.state_succ happens]
    change (next config _ _).calls call = _
    simp only [next,waiting,answered]
    exact Function.update_self ..
  refine ⟨⟨data,moved⟩,fun j event earlier same owner => ?_⟩
  rcases Nat.lt_succ_iff_lt_or_eq.mp earlier with before | rfl
  · exact faultless_run run waiting (by simp) j event before same owner
  · obtain rfl := Option.some.inj (happens.symm.trans same)
    exact Or.inr ⟨⟨message,answered⟩,_,waiting,taken⟩

/-- Both promises hold of a run exactly when no sign-up meets an existing account. -/
theorem conflicts_answered_iff (configured : getSupabaseClient config = .ok ())
    (refuses : RefusesKnown supabase) : ConflictsAnswered run ↔ NoRepeatedSignUp run := by
  constructor
  · intro answered i call outcome data happens replied waiting taken
    obtain ⟨⟨_,found,allowed⟩,_⟩ := run.enabled happens
    obtain rfl := congrArg RegisterCall.data (Option.some.inj (waiting.symm.trans found))
    have known := refuses _ _ outcome allowed taken
    cases reply : outcome.reply with
    | user id => exact known id reply
    | rejected rejection => exact replied rejection reply
    | error message =>
      have status := answered.2 call (i+1) _ (repeated_signUp_loses run happens reply waiting taken)
      simp [errorResponse,Response.status] at status
  · intro once
    exact ⟨oneSucceeded_run run,losers_answered run configured once⟩

end Runs

def ConcurrentRegistration : Prop :=
  ∀ supabase, RefusesKnown supabase → ∀ run : Run (machine tribe supabase), FreshValues run →
    ConflictsAnswered run

/-- Two requests for one email; the second pre-check runs after the first row is there. -/
def overlapping : Run (machine tribe autoConfirm) where
  start := emptyStores
  events := [.register 0 ⟨"ana@tribe.es","ana","Secret#1"⟩,
    .register 1 ⟨"ana@tribe.es","anna","Secret#2"⟩,.findByEmail 0 (.ok ()),.findByUsername 0 (.ok ()),
    .signUp 0 ⟨some "a1",.user (some "a1")⟩,.hash 0 (.ok "argon2"),.create 0 "u1" 7 .done,
    .findByEmail 1 (.ok ())]
  starts := emptyStores_initial
  legal := by
    refine ⟨rfl,rfl,⟨_,rfl⟩,⟨_,rfl⟩,⟨⟨_,rfl,Or.inr ⟨?_,_,rfl⟩⟩,?_⟩,⟨_,_,rfl⟩,⟨⟨_,_,_,rfl⟩,?_⟩,⟨_,rfl⟩,
      trivial⟩
    · decide
    · exact fun _ _ account present => by cases present
    · decide

theorem overlapping_once : NoRepeatedSignUp overlapping := by
  intro i call outcome data happens _ waiting
  obtain ⟨bound,equal⟩ := List.getElem?_eq_some_iff.mp happens
  have bound : i < 8 := bound
  interval_cases i <;> cases equal
  intro registered
  obtain ⟨account,present,_⟩ := registered
  cases present

theorem overlapping_answered : ConflictsAnswered overlapping :=
  (conflicts_answered_iff overlapping rfl autoConfirm_refuses).mpr overlapping_once

/-- Both requests pass the pre-checks before either sign-up. -/
def racing : Run (machine tribe autoConfirm) where
  start := emptyStores
  events := [.register 0 ⟨"ana@tribe.es","ana","Secret#1"⟩,
    .register 1 ⟨"ana@tribe.es","anna","Secret#2"⟩,.findByEmail 0 (.ok ()),.findByEmail 1 (.ok ()),
    .findByUsername 0 (.ok ()),.findByUsername 1 (.ok ()),.signUp 0 ⟨some "a1",.user (some "a1")⟩,
    .signUp 1 ⟨none,.error "User already registered"⟩]
  starts := emptyStores_initial
  legal := by
    refine ⟨rfl,rfl,⟨_,rfl⟩,⟨_,rfl⟩,⟨_,rfl⟩,⟨_,rfl⟩,⟨⟨_,rfl,Or.inr ⟨?_,_,rfl⟩⟩,?_⟩,
      ⟨⟨_,rfl,Or.inl ⟨?_,rfl⟩⟩,?_⟩,trivial⟩
    · decide
    · exact fun _ _ account present => by cases present
    · exact ⟨_,List.mem_singleton.mpr rfl,rfl⟩
    · exact fun _ new => by cases new

theorem concurrent_registration_fails : ¬ConcurrentRegistration := by
  intro promised
  have fresh : FreshValues racing := by
    intro i call data _
    exact ⟨fun user present => (by cases present),fun account present => (by cases present)⟩
  have taken : Registered (racing.state 7).accounts "ana@tribe.es" :=
    ⟨_,List.mem_singleton.mpr rfl,rfl⟩
  have meets : racing.Happens 7 (.signUp 1 ⟨none,.error "User already registered"⟩) := rfl
  have loses := repeated_signUp_loses racing meets rfl rfl taken
  have status := (promised autoConfirm autoConfirm_refuses racing fresh).2 1 8 _ loses
  simp [errorResponse,Response.status] at status

end TribeHub.Auth
