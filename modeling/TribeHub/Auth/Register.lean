import TribeHub.Auth.UsersTable
import TribeHub.Library.Transition

/-! AuthService.register under AuthController.register as a machine of concurrent
calls. A call stops at each await: the two pre-checks, the Supabase sign-up, the
password hash and the insertion of its row. -/
namespace TribeHub.Auth

structure RegisterRequest where
  email : String
  username : String
  password : String

structure SupabaseConfig where
  url : Option String
  anonKey : Option String

/-- An account at Supabase, with the email and username of the sign-up that made it. -/
structure Account where
  id : String
  email : String
  username : String

inductive Rejection where
  | error (message : String)
  | other

inductive Thrown where
  | conflict (message : String)
  | internalServerError (message : String)
  | rejected (rejection : Rejection)

def missing (value : Option String) : Bool := value.getD "" = ""

def getSupabaseClient (config : SupabaseConfig) : Except Rejection Unit :=
  if missing config.url then
    .error (.error "Missing required environment variable: SUPABASE_URL")
  else if missing config.anonKey then
    .error (.error "Missing required environment variable: SUPABASE_ANON_KEY")
  else .ok ()

def tribe : SupabaseConfig := ⟨some "https://supabase",some "key"⟩

structure PublicUser where
  id : String
  email : String
  username : String
  createdAt : Nat

def publicUser (user : User) : PublicUser := ⟨user.id,user.email,user.username,user.createdAt⟩

def createError (code : Option String) : Thrown :=
  if code = some "P2002" then .conflict "Email or username already in use"
  else .internalServerError "Failed to create user"

inductive Response where
  | created (data : PublicUser) (message : String)
  | exception (status : Nat) (code : Option String) (message : String)

def Response.status : Response → Nat
  | .created _ _ => 201
  | .exception status _ _ => status

/-- The `catch` of AuthController.register: only an HttpException keeps its status. -/
def errorResponse : Thrown → Response
  | .conflict message => .exception 409 none message
  | .internalServerError message => .exception 500 none message
  | .rejected (.error message) => .exception 400 (some "REGISTER_ERROR") message
  | .rejected .other => .exception 400 (some "REGISTER_ERROR") "Unknown error"

/-- Where a registration is suspended, and what it carries. -/
inductive RegisterPc where
  | findByEmail
  | findByUsername
  | signUp
  | hash (supabaseUserId : Option String)
  | create (supabaseUserId : Option String) (passwordHash : String)
  | returned (user : PublicUser)
  | threw (error : Thrown)

def response : RegisterPc → Option Response
  | .returned user => some (.created user "User registered successfully")
  | .threw error => some (errorResponse error)
  | _ => none

structure RegisterCall where
  data : RegisterRequest
  pc : RegisterPc

structure State where
  users : UsersTable
  accounts : List Account
  calls : Nat → Option RegisterCall

/-- How `supabase.auth.signUp` ends: with the id of the `user` in its data, with its error, or
by throwing. -/
inductive SignUpReply where
  | user (id : Option String)
  | error (message : String)
  | rejected (rejection : Rejection)

def SignUpReply.pc : SignUpReply → RegisterPc
  | .user id => .hash id
  | .error message => .threw (.rejected (.error message))
  | .rejected rejection => .threw (.rejected rejection)

/-- What Supabase makes of a sign-up, the id of a new account or none, and what the call gets
to know of it. -/
structure SignUpOutcome where
  created : Option String
  reply : SignUpReply

/-- The outcomes that Supabase allows for a sign-up next to these accounts. -/
abbrev Supabase := List Account → RegisterRequest → SignUpOutcome → Prop

/-- A query that rejects may still have been executed. `code` is that of the error. -/
inductive CreateOutcome where
  | done
  | failed (executed : Bool) (code : Option String)

def CreateOutcome.executed : CreateOutcome → Bool
  | .done => true
  | .failed executed _ => executed

/-- An event stands where its effect on the stores does, also if the call has learnt of a
failure before. -/
inductive Event where
  | register (call : Nat) (data : RegisterRequest)
  | findByEmail (call : Nat) (outcome : Except Rejection Unit)
  | findByUsername (call : Nat) (outcome : Except Rejection Unit)
  | signUp (call : Nat) (outcome : SignUpOutcome)
  | hash (call : Nat) (outcome : Except Rejection String)
  | create (call : Nat) (id : String) (now : Nat) (outcome : CreateOutcome)

def Event.call : Event → Nat
  | .register call _ => call
  | .findByEmail call _ => call
  | .findByUsername call _ => call
  | .signUp call _ => call
  | .hash call _ => call
  | .create call _ _ _ => call

def State.setCall (s : State) (call : Nat) (data : RegisterRequest) (pc : RegisterPc) : State :=
  {s with calls := Function.update s.calls call (some ⟨data,pc⟩)}

def Registered (accounts : List Account) (email : String) : Prop :=
  ∃ account ∈ accounts, account.email = email

instance (accounts : List Account) (email : String) : Decidable (Registered accounts email) :=
  inferInstanceAs (Decidable (∃ account ∈ accounts, account.email = email))

def signUp (accounts : List Account) (data : RegisterRequest) (created : Option String) :
    List Account :=
  match created with
  | some id => accounts ++ [⟨id,data.email,data.username⟩]
  | none => accounts

def userData (data : RegisterRequest) (supabaseUserId : Option String) (passwordHash : String) :
    CreateUserData := ⟨data.email,data.username,passwordHash,supabaseUserId⟩

def next (config : SupabaseConfig) (s : State) : Event → State
  | .register call data => s.setCall call data .findByEmail
  | .findByEmail call outcome =>
    match s.calls call with
    | some ⟨data,.findByEmail⟩ =>
      match outcome with
      | .error rejection => s.setCall call data (.threw (.rejected rejection))
      | .ok _ =>
        match findByEmail s.users data.email with
        | some _ => s.setCall call data (.threw (.conflict "Email already in use"))
        | none => s.setCall call data .findByUsername
    | _ => s
  | .findByUsername call outcome =>
    match s.calls call with
    | some ⟨data,.findByUsername⟩ =>
      match outcome with
      | .error rejection => s.setCall call data (.threw (.rejected rejection))
      | .ok _ =>
        match findByUsername s.users data.username with
        | some _ => s.setCall call data (.threw (.conflict "Username already in use"))
        | none =>
          match getSupabaseClient config with
          | .error rejection => s.setCall call data (.threw (.rejected rejection))
          | .ok _ => s.setCall call data .signUp
    | _ => s
  | .signUp call outcome =>
    match s.calls call with
    | some ⟨data,.signUp⟩ =>
      {s.setCall call data outcome.reply.pc with
        accounts := signUp s.accounts data outcome.created}
    | _ => s
  | .hash call outcome =>
    match s.calls call with
    | some ⟨data,.hash supabaseUserId⟩ =>
      match outcome with
      | .error rejection => s.setCall call data (.threw (.rejected rejection))
      | .ok passwordHash => s.setCall call data (.create supabaseUserId passwordHash)
    | _ => s
  | .create call id now outcome =>
    match s.calls call with
    | some ⟨data,.create supabaseUserId passwordHash⟩ =>
      let row := userData data supabaseUserId passwordHash
      match outcome with
      | .done =>
        match create s.users row id now with
        | some users =>
          {s.setCall call data (.returned (publicUser (row.row id now))) with users := users}
        | none => s.setCall call data (.threw (createError (some "P2002")))
      | .failed executed code =>
        {s.setCall call data (.threw (createError code)) with
          users := if executed then (create s.users row id now).getD s.users else s.users}
    | _ => s

/-- A call takes the steps it waits for, Supabase allows the outcome of a sign-up, and new ids
are unused in their store. -/
def Enabled (supabase : Supabase) (s : State) : Event → Prop
  | .register call _ => s.calls call = none
  | .findByEmail call _ => ∃ data, s.calls call = some ⟨data,.findByEmail⟩
  | .findByUsername call _ => ∃ data, s.calls call = some ⟨data,.findByUsername⟩
  | .signUp call outcome => (∃ data, s.calls call = some ⟨data,.signUp⟩ ∧
      supabase s.accounts data outcome) ∧
    ∀ id, outcome.created = some id → ∀ account ∈ s.accounts, account.id ≠ id
  | .hash call _ => ∃ data supabaseUserId, s.calls call = some ⟨data,.hash supabaseUserId⟩
  | .create call id _ _ => (∃ data supabaseUserId passwordHash,
    s.calls call = some ⟨data,.create supabaseUserId passwordHash⟩) ∧
      ∀ user ∈ s.users.rows, user.id ≠ id

def Initial (s : State) : Prop := ∀ call, s.calls call = none

def machine (config : SupabaseConfig) (supabase : Supabase) : Transition.Machine State Event where
  init := Initial
  enabled := Enabled supabase
  next := next config

def emptyStores : State := ⟨UniqueTable.empty,[],fun _ => none⟩

theorem emptyStores_initial : Initial emptyStores := fun _ => rfl

/-- Supabase with the confirmation of emails turned off: an error for an email that has an
account, and a new account for any other. -/
def autoConfirm : Supabase := fun accounts data outcome =>
  (Registered accounts data.email ∧ outcome = ⟨none,.error "User already registered"⟩) ∨
    (¬Registered accounts data.email ∧ ∃ id, outcome = ⟨some id,.user (some id)⟩)

/-- The step a call waits for ended with an exception, and neither store changed. -/
inductive Stops (config : SupabaseConfig) (s : State) (call : Nat) (data : RegisterRequest) :
    RegisterPc → Event → Thrown → Prop
  | emailQuery (rejection) :
      Stops config s call data .findByEmail (.findByEmail call (.error rejection)) (.rejected rejection)
  | emailInUse (user) (found : findByEmail s.users data.email = some user) :
      Stops config s call data .findByEmail (.findByEmail call (.ok ()))
        (.conflict "Email already in use")
  | usernameQuery (rejection) :
      Stops config s call data .findByUsername (.findByUsername call (.error rejection))
        (.rejected rejection)
  | usernameInUse (user) (found : findByUsername s.users data.username = some user) :
      Stops config s call data .findByUsername (.findByUsername call (.ok ()))
        (.conflict "Username already in use")
  | unconfigured (rejection) (absent : getSupabaseClient config = .error rejection) :
      Stops config s call data .findByUsername (.findByUsername call (.ok ())) (.rejected rejection)
  | refused (message) :
      Stops config s call data .signUp (.signUp call ⟨none,.error message⟩)
        (.rejected (.error message))
  | signUpFailed (rejection) :
      Stops config s call data .signUp (.signUp call ⟨none,.rejected rejection⟩) (.rejected rejection)
  | hashFailed (supabaseUserId rejection) :
      Stops config s call data (.hash supabaseUserId) (.hash call (.error rejection))
        (.rejected rejection)
  | createFailed (supabaseUserId passwordHash id now executed code)
      (kept : executed = false ∨
        create s.users (userData data supabaseUserId passwordHash) id now = none) :
      Stops config s call data (.create supabaseUserId passwordHash)
        (.create call id now (.failed executed code)) (createError code)
  | constraint (supabaseUserId passwordHash id now)
      (taken : create s.users (userData data supabaseUserId passwordHash) id now = none) :
      Stops config s call data (.create supabaseUserId passwordHash) (.create call id now .done)
        (.conflict "Email or username already in use")

inductive Reads (config : SupabaseConfig) (s : State) (call : Nat) (data : RegisterRequest) :
    RegisterPc → Event → RegisterPc → Prop
  | emailFree (free : findByEmail s.users data.email = none) :
      Reads config s call data .findByEmail (.findByEmail call (.ok ())) .findByUsername
  | usernameFree (free : findByUsername s.users data.username = none) :
      Reads config s call data .findByUsername (.findByUsername call (.ok ())) .signUp
  | answered (supabaseUserId) :
      Reads config s call data .signUp (.signUp call ⟨none,.user supabaseUserId⟩)
        (.hash supabaseUserId)
  | hashed (supabaseUserId passwordHash) :
      Reads config s call data (.hash supabaseUserId) (.hash call (.ok passwordHash))
        (.create supabaseUserId passwordHash)

/-- The row is in the table; the call returns it, or an error has come in place of the reply. -/
inductive Inserts (call : Nat) (id : String) (now : Nat) (row : User) : Event → RegisterPc → Prop
  | done : Inserts call id now row (.create call id now .done) (.returned (publicUser row))
  | lost (code) :
      Inserts call id now row (.create call id now (.failed true code)) (.threw (createError code))

/-- What one event does: a call begins, stops, reads, makes its account or inserts its row. -/
inductive Move (config : SupabaseConfig) (supabase : Supabase) (s : State) : Event → State → Prop
  | register (call data) (unused : s.calls call = none) :
      Move config supabase s (.register call data) (s.setCall call data .findByEmail)
  | stops (call data pc event error) (waiting : s.calls call = some ⟨data,pc⟩)
      (reason : Stops config s call data pc event error) :
      Move config supabase s event (s.setCall call data (.threw error))
  | reads (call data pc event after) (waiting : s.calls call = some ⟨data,pc⟩)
      (step : Reads config s call data pc event after) :
      Move config supabase s event (s.setCall call data after)
  | signsUp (call data id reply) (waiting : s.calls call = some ⟨data,.signUp⟩)
      (allowed : supabase s.accounts data ⟨some id,reply⟩)
      (unused : ∀ account ∈ s.accounts, account.id ≠ id) :
      Move config supabase s (.signUp call ⟨some id,reply⟩) {s.setCall call data reply.pc with
        accounts := s.accounts ++ [⟨id,data.email,data.username⟩]}
  | creates (call data supabaseUserId passwordHash id now users event after)
      (waiting : s.calls call = some ⟨data,.create supabaseUserId passwordHash⟩)
      (created : create s.users (userData data supabaseUserId passwordHash) id now = some users)
      (step : Inserts call id now ((userData data supabaseUserId passwordHash).row id now) event after) :
      Move config supabase s event {s.setCall call data after with users := users}

theorem next_move (config : SupabaseConfig) (supabase : Supabase) (s : State) (event : Event)
    (enabled : Enabled supabase s event) : Move config supabase s event (next config s event) := by
  cases event with
  | register call data => exact .register call data enabled
  | findByEmail call outcome =>
    obtain ⟨data,waiting⟩ := enabled
    simp only [next,waiting]
    cases outcome with
    | error rejection => exact .stops call data _ _ _ waiting (.emailQuery rejection)
    | ok _ =>
      cases found : findByEmail s.users data.email with
      | some user => exact .stops call data _ _ _ waiting (.emailInUse user found)
      | none => exact .reads call data _ _ _ waiting (.emailFree found)
  | findByUsername call outcome =>
    obtain ⟨data,waiting⟩ := enabled
    simp only [next,waiting]
    cases outcome with
    | error rejection => exact .stops call data _ _ _ waiting (.usernameQuery rejection)
    | ok _ =>
      cases found : findByUsername s.users data.username with
      | some user => exact .stops call data _ _ _ waiting (.usernameInUse user found)
      | none =>
        cases client : getSupabaseClient config with
        | error rejection => exact .stops call data _ _ _ waiting (.unconfigured rejection client)
        | ok _ => exact .reads call data _ _ _ waiting (.usernameFree found)
  | signUp call outcome =>
    obtain ⟨⟨data,waiting,allowed⟩,unused⟩ := enabled
    obtain ⟨created,reply⟩ := outcome
    simp only [next,waiting]
    cases created with
    | some id => exact .signsUp call data id reply waiting allowed (unused id rfl)
    | none =>
      cases reply with
      | user id => exact .reads call data _ _ _ waiting (.answered id)
      | error message => exact .stops call data _ _ _ waiting (.refused message)
      | rejected rejection => exact .stops call data _ _ _ waiting (.signUpFailed rejection)
  | hash call outcome =>
    obtain ⟨data,supabaseUserId,waiting⟩ := enabled
    simp only [next,waiting]
    cases outcome with
    | error rejection => exact .stops call data _ _ _ waiting (.hashFailed supabaseUserId rejection)
    | ok passwordHash => exact .reads call data _ _ _ waiting (.hashed supabaseUserId passwordHash)
  | create call id now outcome =>
    obtain ⟨⟨data,supabaseUserId,passwordHash,waiting⟩,_⟩ := enabled
    simp only [next,waiting]
    cases created : create s.users (userData data supabaseUserId passwordHash) id now with
    | some users =>
      have inserts {event : Event} {after : RegisterPc} (step : Inserts call id now
          ((userData data supabaseUserId passwordHash).row id now) event after) :
          Move config supabase s event {s.setCall call data after with users := users} :=
        .creates call data supabaseUserId passwordHash id now users event after waiting created step
      cases outcome with
      | done => exact inserts .done
      | failed executed code =>
        cases executed with
        | true => exact inserts (.lost code)
        | false =>
          exact .stops call data _ _ _ waiting
            (.createFailed supabaseUserId passwordHash id now false code (Or.inl rfl))
    | none =>
      cases outcome with
      | done =>
        exact .stops call data _ _ _ waiting (.constraint supabaseUserId passwordHash id now created)
      | failed executed code =>
        simp only [Option.getD_none,ite_self]
        exact .stops call data _ _ _ waiting
          (.createFailed supabaseUserId passwordHash id now executed code (Or.inr created))

theorem run_move {config : SupabaseConfig} {supabase : Supabase}
    (run : Transition.Run (machine config supabase)) {i : Nat} {event : Event}
    (happens : run.Happens i event) : Move config supabase (run.state i) event (run.state (i+1)) := by
  rw [run.state_succ happens]
  exact next_move config supabase (run.state i) event (run.enabled happens)

/-- How many awaits a suspended call has behind it; an ended call is past all of them. -/
def RegisterPc.passed : RegisterPc → Nat
  | .findByEmail => 0
  | .findByUsername => 1
  | .signUp => 2
  | .hash _ => 3
  | .create _ _ => 4
  | .returned _ => 5
  | .threw _ => 5

theorem RegisterPc.passed_le (pc : RegisterPc) : pc.passed ≤ 5 := by
  cases pc <;> simp [RegisterPc.passed]

/-- The id that the call has from its sign-up, while it still carries it. -/
def RegisterPc.answer : RegisterPc → Option (Option String)
  | .hash supabaseUserId => some supabaseUserId
  | .create supabaseUserId _ => some supabaseUserId
  | _ => none

section Step

variable {config : SupabaseConfig} {supabase : Supabase} {s t : State} {event : Event}

/-- How a call came to a record that it did not have before the event. -/
inductive Entered (config : SupabaseConfig) (supabase : Supabase) (s t : State) (call : Nat) :
    Event → RegisterCall → Prop
  | begun (data) (unused : s.calls call = none) :
      Entered config supabase s t call (.register call data) ⟨data,.findByEmail⟩
  | stopped (data pc event error) (waiting : s.calls call = some ⟨data,pc⟩)
      (reason : Stops config s call data pc event error) :
      Entered config supabase s t call event ⟨data,.threw error⟩
  | advanced (data pc event after) (waiting : s.calls call = some ⟨data,pc⟩)
      (step : Reads config s call data pc event after) :
      Entered config supabase s t call event ⟨data,after⟩
  | signedUp (data id reply) (waiting : s.calls call = some ⟨data,.signUp⟩)
      (allowed : supabase s.accounts data ⟨some id,reply⟩)
      (unused : ∀ account ∈ s.accounts, account.id ≠ id)
      (grown : t.accounts = s.accounts ++ [⟨id,data.email,data.username⟩]) :
      Entered config supabase s t call (.signUp call ⟨some id,reply⟩) ⟨data,reply.pc⟩
  | inserted (data supabaseUserId passwordHash id now event after)
      (waiting : s.calls call = some ⟨data,.create supabaseUserId passwordHash⟩)
      (created : create s.users (userData data supabaseUserId passwordHash) id now = some t.users)
      (step : Inserts call id now ((userData data supabaseUserId passwordHash).row id now) event after) :
      Entered config supabase s t call event ⟨data,after⟩

theorem Stops.call_eq {call : Nat} {data : RegisterRequest} {pc : RegisterPc} {error : Thrown}
    (reason : Stops config s call data pc event error) : event.call = call ∧ pc.passed < 5 := by
  cases reason <;> exact ⟨rfl,by simp [RegisterPc.passed]⟩

theorem Reads.advances {call : Nat} {data : RegisterRequest} {pc after : RegisterPc}
    (step : Reads config s call data pc event after) :
    event.call = call ∧ pc.passed < after.passed := by
  cases step <;> exact ⟨rfl,by simp [RegisterPc.passed]⟩

theorem SignUpReply.passed (reply : SignUpReply) : 2 < reply.pc.passed := by
  cases reply <;> simp [SignUpReply.pc,RegisterPc.passed]

theorem SignUpReply.answer_pc {reply : SignUpReply} {id : Option String} :
    reply.pc.answer = some id ↔ reply = .user id := by
  cases reply <;> simp [SignUpReply.pc,RegisterPc.answer]

theorem Inserts.ends {call now : Nat} {id : String} {row : User} {after : RegisterPc}
    (step : Inserts call id now row event after) : event.call = call ∧ after.passed = 5 ∧
      after.answer = none ∧ ∃ outcome, event = .create call id now outcome ∧ outcome.executed = true := by
  cases step with
  | done => exact ⟨rfl,rfl,rfl,_,rfl,rfl⟩
  | lost code => exact ⟨rfl,rfl,rfl,_,rfl,rfl⟩

theorem Inserts.returned {call now : Nat} {id : String} {row : User} {after : RegisterPc}
    {user : PublicUser} (step : Inserts call id now row event after) (returned : after = .returned user) :
    user = publicUser row := by
  cases step with
  | done => exact (RegisterPc.returned.inj returned).symm
  | lost code => contradiction

theorem Entered.advances {call : Nat} {old record : RegisterCall}
    (entered : Entered config supabase s t call event record) (before : s.calls call = some old) :
    record.data = old.data ∧ old.pc.passed < record.pc.passed := by
  cases entered with
  | begun data unused =>
    rw [unused] at before
    contradiction
  | stopped data pc event error waiting reason =>
    obtain rfl := Option.some.inj (before.symm.trans waiting)
    exact ⟨rfl,reason.call_eq.2⟩
  | advanced data pc event after waiting step =>
    obtain rfl := Option.some.inj (before.symm.trans waiting)
    exact ⟨rfl,step.advances.2⟩
  | signedUp data id reply waiting allowed unused grown =>
    obtain rfl := Option.some.inj (before.symm.trans waiting)
    exact ⟨rfl,reply.passed⟩
  | inserted data supabaseUserId passwordHash id now event after waiting created step =>
    obtain rfl := Option.some.inj (before.symm.trans waiting)
    refine ⟨rfl,?_⟩
    rw [step.ends.2.1]
    exact Nat.lt_succ_self 4

/-- A call carries the id of its own sign-up. -/
theorem Entered.answer {call : Nat} {record : RegisterCall} {id : Option String}
    (entered : Entered config supabase s t call event record) (answer : record.pc.answer = some id) :
    (∃ pc, s.calls call = some ⟨record.data,pc⟩ ∧ pc.answer = some id) ∨
      ∃ created, event = .signUp call ⟨created,.user id⟩ := by
  cases entered with
  | begun data unused => simp [RegisterPc.answer] at answer
  | stopped data pc event error waiting reason => simp [RegisterPc.answer] at answer
  | advanced data pc event after waiting step =>
    cases step with
    | emailFree free => simp [RegisterPc.answer] at answer
    | usernameFree free => simp [RegisterPc.answer] at answer
    | answered supabaseUserId =>
      obtain rfl := Option.some.inj answer
      exact Or.inr ⟨none,rfl⟩
    | hashed supabaseUserId passwordHash => exact Or.inl ⟨_,waiting,answer⟩
  | signedUp data made reply waiting allowed unused grown =>
    obtain rfl := SignUpReply.answer_pc.mp answer
    exact Or.inr ⟨some made,rfl⟩
  | inserted data supabaseUserId passwordHash made now event after waiting created step =>
    simp [step.ends.2.2.1] at answer

theorem Move.moved (move : Move config supabase s event t) :
    ∃ record, t.calls event.call = some record ∧ Entered config supabase s t event.call event record := by
  cases move with
  | register call data unused => exact ⟨_,Function.update_self ..,.begun data unused⟩
  | stops call data pc event error waiting reason =>
    obtain ⟨rfl,_⟩ := reason.call_eq
    exact ⟨_,Function.update_self ..,.stopped data pc event error waiting reason⟩
  | reads call data pc event after waiting step =>
    obtain ⟨rfl,_⟩ := step.advances
    exact ⟨_,Function.update_self ..,.advanced data pc event after waiting step⟩
  | signsUp call data id reply waiting allowed unused =>
    exact ⟨_,Function.update_self ..,.signedUp data id reply waiting allowed unused rfl⟩
  | creates call data supabaseUserId passwordHash id now users event after waiting created step =>
    obtain ⟨rfl,_⟩ := step.ends
    exact ⟨_,Function.update_self ..,
      .inserted data supabaseUserId passwordHash id now event after waiting created step⟩

theorem Move.others (move : Move config supabase s event t) {other : Nat}
    (distinct : other ≠ event.call) : t.calls other = s.calls other := by
  cases move with
  | register call data unused => exact Function.update_of_ne distinct ..
  | stops call data pc event error waiting reason =>
    obtain ⟨rfl,_⟩ := reason.call_eq
    exact Function.update_of_ne distinct ..
  | reads call data pc event after waiting step =>
    obtain ⟨rfl,_⟩ := step.advances
    exact Function.update_of_ne distinct ..
  | signsUp call data id reply waiting allowed unused => exact Function.update_of_ne distinct ..
  | creates call data supabaseUserId passwordHash id now users event after waiting created step =>
    obtain ⟨rfl,_⟩ := step.ends
    exact Function.update_of_ne distinct ..

theorem Move.entered (move : Move config supabase s event t) {call : Nat} {record : RegisterCall}
    (found : t.calls call = some record) :
    s.calls call = some record ∨
      (event.call = call ∧ Entered config supabase s t call event record) := by
  by_cases same : call = event.call
  · subst same
    obtain ⟨after,read,entered⟩ := move.moved
    obtain rfl := Option.some.inj (found.symm.trans read)
    exact Or.inr ⟨rfl,entered⟩
  · exact Or.inl ((move.others same).symm.trans found)

/-- A call keeps its request, and moves only by its own events, always forward. -/
theorem Move.call_kept (move : Move config supabase s event t) {call : Nat} {old : RegisterCall}
    (before : s.calls call = some old) : ∃ record, t.calls call = some record ∧
      record.data = old.data ∧
        (record = old ∨ (event.call = call ∧ old.pc.passed < record.pc.passed)) := by
  by_cases same : call = event.call
  · subst same
    obtain ⟨record,found,entered⟩ := move.moved
    obtain ⟨data,forward⟩ := entered.advances before
    exact ⟨record,found,data,Or.inr ⟨rfl,forward⟩⟩
  · exact ⟨old,(move.others same).trans before,rfl,Or.inl rfl⟩

theorem Move.accounts (move : Move config supabase s event t) :
    t.accounts = s.accounts ∨ ∃ data id reply, event = .signUp event.call ⟨some id,reply⟩ ∧
      s.calls event.call = some ⟨data,.signUp⟩ ∧ (∀ account ∈ s.accounts, account.id ≠ id) ∧
        t.accounts = s.accounts ++ [⟨id,data.email,data.username⟩] := by
  cases move with
  | signsUp call data id reply waiting allowed unused =>
    exact Or.inr ⟨data,id,reply,rfl,waiting,unused,rfl⟩
  | _ => exact Or.inl rfl

theorem Move.account_stays (move : Move config supabase s event t) {account : Account}
    (present : account ∈ s.accounts) : account ∈ t.accounts := by
  rcases move.accounts with same | ⟨data,id,reply,_,_,_,grown⟩
  · exact same ▸ present
  · rw [grown]
    exact List.mem_append_left _ present

theorem Move.rows (move : Move config supabase s event t) :
    t.users = s.users ∨ ∃ data supabaseUserId passwordHash id now after,
      s.calls event.call = some ⟨data,.create supabaseUserId passwordHash⟩ ∧
        create s.users (userData data supabaseUserId passwordHash) id now = some t.users ∧
          Inserts event.call id now ((userData data supabaseUserId passwordHash).row id now) event after ∧
            t.calls event.call = some ⟨data,after⟩ := by
  cases move with
  | creates call data supabaseUserId passwordHash id now users event after waiting created step =>
    obtain ⟨rfl,_⟩ := step.ends
    exact Or.inr ⟨data,supabaseUserId,passwordHash,id,now,after,waiting,created,step,
      Function.update_self ..⟩
  | _ => exact Or.inl rfl

theorem Move.row_stays (move : Move config supabase s event t) {user : User}
    (present : user ∈ s.users.rows) : user ∈ t.users.rows := by
  rcases move.rows with same | ⟨data,supabaseUserId,passwordHash,id,now,after,_,created,_⟩
  · exact same ▸ present
  · rw [(create_some created).1]
    exact List.mem_append_left _ present

end Step

section Runs

variable {config : SupabaseConfig} {supabase : Supabase} (run : Transition.Run (machine config supabase))

theorem call_run {call first : Nat} {old : RegisterCall}
    (before : (run.state first).calls call = some old) : ∀ i, first ≤ i →
      ∃ record, (run.state i).calls call = some record ∧ record.data = old.data ∧
        (record = old ∨ old.pc.passed < record.pc.passed) := by
  apply run.induct_from first
  · exact ⟨old,before,rfl,Or.inl rfl⟩
  · intro i _ _ same ih
    rw [same]
    exact ih
  · intro i event _ happens _ ih
    obtain ⟨record,found,data,order⟩ := ih
    obtain ⟨later,read,kept,moved⟩ := (run_move run happens).call_kept found
    refine ⟨later,read,kept.trans data,?_⟩
    rcases moved with rfl | ⟨_,forward⟩
    · exact order
    · rcases order with rfl | earlier
      · exact Or.inr forward
      · exact Or.inr (Nat.lt_trans earlier forward)

theorem ended_run {call first : Nat} {old : RegisterCall}
    (before : (run.state first).calls call = some old) (ended : old.pc.passed = 5) (i : Nat)
    (later : first ≤ i) : (run.state i).calls call = some old := by
  obtain ⟨record,found,_,rfl | beyond⟩ := call_run run before i later
  · exact found
  · have bound := record.pc.passed_le
    omega

theorem step_once {j k : Nat} {event other : Event} {old waiting : RegisterCall}
    (happens : run.Happens j event) (before : (run.state j).calls event.call = some old)
    (occurs : run.Happens k other) (own : other.call = event.call)
    (found : (run.state k).calls event.call = some waiting)
    (stage : waiting.pc.passed = old.pc.passed) : j = k := by
  have not_before {j k : Nat} {event : Event} {old waiting : RegisterCall}
      (happens : run.Happens j event) (before : (run.state j).calls event.call = some old)
      (found : (run.state k).calls event.call = some waiting)
      (stage : waiting.pc.passed = old.pc.passed) : k ≤ j := by
    by_contra later
    obtain ⟨record,past,entered⟩ := (run_move run happens).moved
    have forward := (entered.advances before).2
    obtain ⟨reached,read,_,order⟩ := call_run run past k (by omega)
    obtain rfl := Option.some.inj (read.symm.trans found)
    rcases order with rfl | beyond
    · omega
    · omega
  have first : k ≤ j := not_before happens before found stage
  have second : j ≤ k := not_before occurs (own ▸ found) (own ▸ before) stage.symm
  omega

/-- Whatever a call has come to, it has come to by an event of its own. -/
theorem entered_at (i call : Nat) (record : RegisterCall)
    (found : (run.state i).calls call = some record) : ∃ j < i, ∃ event, run.Happens j event ∧
      event.call = call ∧ Entered config supabase (run.state j) (run.state (j+1)) call event record := by
  revert found
  refine run.induct_from 0 (fun i => (run.state i).calls call = some record → ∃ j < i, ∃ event,
    run.Happens j event ∧ event.call = call ∧
      Entered config supabase (run.state j) (run.state (j+1)) call event record) ?_ ?_ ?_ i (Nat.zero_le i)
  · intro found
    rw [run.init_state call] at found
    contradiction
  · intro i _ _ same ih found
    obtain ⟨j,before,rest⟩ := ih (same ▸ found)
    exact ⟨j,Nat.lt_succ_of_lt before,rest⟩
  · intro i event _ happens _ ih found
    rcases (run_move run happens).entered found with held | ⟨own,entered⟩
    · obtain ⟨j,before,rest⟩ := ih held
      exact ⟨j,Nat.lt_succ_of_lt before,rest⟩
    · exact ⟨i,Nat.lt_succ_self i,event,happens,own,entered⟩

/-- The sign-up of the call, before position `i`, was answered with this id. -/
def Answered (i call : Nat) (id : Option String) : Prop :=
  ∃ j < i, ∃ created, run.Happens j (.signUp call ⟨created,.user id⟩)

theorem Answered.mono {i k call : Nat} {id : Option String} (answered : Answered run i call id)
    (later : i ≤ k) : Answered run k call id := by
  obtain ⟨j,before,created,happens⟩ := answered
  exact ⟨j,Nat.lt_of_lt_of_le before later,created,happens⟩

theorem answered_run (i : Nat) : ∀ call record id, (run.state i).calls call = some record →
    record.pc.answer = some id → Answered run i call id := by
  induction i using Nat.strong_induction_on with
  | h i ih =>
    intro call record id found answer
    obtain ⟨j,before,event,happens,_,entered⟩ := entered_at run i call record found
    rcases entered.answer answer with ⟨pc,waiting,held⟩ | ⟨created,rfl⟩
    · exact (ih j before call _ id waiting held).mono run (Nat.le_of_lt before)
    · exact ⟨j,before,created,happens⟩

end Runs

end TribeHub.Auth
