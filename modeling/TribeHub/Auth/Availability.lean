import TribeHub.Auth.Register

/-! The availability check of a registration that runs alone. The pre-checks pass over
soft-deleted rows and the unique indexes do not. -/
namespace TribeHub.Auth
open UniqueTable Transition

/-- A registration from beginning to end, its queries, sign-up and hash all succeeding. After
an exception the events that remain do nothing. -/
def lone (call : Nat) (data : RegisterRequest) (supabaseId : String) (user : Bool)
    (passwordHash id : String) (now : Nat) : List Event :=
  [.register call data,.findByEmail call (.ok ()),.findByUsername call (.ok ()),
    .signUp call ⟨some supabaseId,.user (if user then some supabaseId else none)⟩,
    .hash call (.ok passwordHash),.create call id now .done]

/-- The sign-up will succeed with an id that no row has, and the id of the new row is unused. -/
structure SignUpReady (config : SupabaseConfig) (s : State) (supabaseId id : String) : Prop where
  configured : getSupabaseClient config = .ok ()
  unlinked : ∀ user ∈ s.users.rows, user.supabaseId ≠ some supabaseId
  unused : ∀ user ∈ s.users.rows, user.id ≠ id

def User.Matches (data : RegisterRequest) (user : User) : Prop :=
  user.email = data.email ∨ user.username = data.username

def ActiveMatch (users : UsersTable) (data : RegisterRequest) : Prop :=
  ∃ user ∈ users.rows, user.deletedAt = none ∧ user.Matches data

def DeletedMatch (users : UsersTable) (data : RegisterRequest) : Prop :=
  ∃ user ∈ users.rows, user.deletedAt ≠ none ∧ user.Matches data

def Returns (s : State) (call : Nat) : Prop :=
  ∃ data user, s.calls call = some ⟨data,.returned user⟩

theorem prechecks_iff (users : UsersTable) (data : RegisterRequest) :
    (findByEmail users data.email = none ∧ findByUsername users data.username = none) ↔
      ¬ActiveMatch users data := by
  simp only [findByEmail,findByUsername,List.find?_eq_none,decide_eq_true_eq,ActiveMatch,User.Matches]
  constructor
  · intro both active
    obtain ⟨email,username⟩ := both
    obtain ⟨user,present,live,same | same⟩ := active
    · exact email user present ⟨same,live⟩
    · exact username user present ⟨same,live⟩
  · intro free
    exact ⟨fun user present found => free ⟨user,present,found.2,Or.inl found.1⟩,
      fun user present found => free ⟨user,present,found.2,Or.inr found.1⟩⟩

/-- With fresh ids the insertion is refused exactly for a row, deleted or not, that matches. -/
theorem create_none_iff {users : UsersTable} (data : RegisterRequest) {supabaseId id : String}
    (unlinked : ∀ user ∈ users.rows, user.supabaseId ≠ some supabaseId)
    (unused : ∀ user ∈ users.rows, user.id ≠ id) (user : Bool) (passwordHash : String) (now : Nat) :
    create users (userData data (if user then some supabaseId else none) passwordHash) id now = none ↔
      ActiveMatch users data ∨ DeletedMatch users data := by
  constructor
  · intro refused
    obtain ⟨row,present,clash⟩ := create_none refused
    have matching : row.Matches data := by
      rcases clash with same | ⟨value,same⟩ | same | same
      · exact absurd same (unused row present)
      · cases user with
        | false => exact absurd same value
        | true => exact absurd same (unlinked row present)
      · exact Or.inl same
      · exact Or.inr same
    by_cases live : row.deletedAt = none
    · exact Or.inl ⟨row,present,live,matching⟩
    · exact Or.inr ⟨row,present,live,matching⟩
  · intro taken
    obtain ⟨row,present,matching⟩ : ∃ row ∈ users.rows, row.Matches data := by
      rcases taken with ⟨row,present,_,matching⟩ | ⟨row,present,_,matching⟩
      · exact ⟨row,present,matching⟩
      · exact ⟨row,present,matching⟩
    cases created : create users
        (userData data (if user then some supabaseId else none) passwordHash) id now with
    | none => rfl
    | some grown =>
      obtain ⟨email,username⟩ := (create_some created).2 row present
      exact absurd matching (not_or.mpr ⟨email,username⟩)

theorem next_threw {config : SupabaseConfig} {s : State} {event : Event} {data : RegisterRequest}
    {error : Thrown} (threw : s.calls event.call = some ⟨data,.threw error⟩)
    (begun : ∀ call data, event ≠ .register call data) : next config s event = s := by
  cases event with
  | register call data => exact absurd rfl (begun call data)
  | _ => simp only [Event.call] at threw; simp only [next,threw]

theorem final_threw {config : SupabaseConfig} {supabase : Supabase} {s : State} {call : Nat} {data : RegisterRequest}
    {error : Thrown} (threw : s.calls call = some ⟨data,.threw error⟩) (events : List Event)
    (own : ∀ event ∈ events, event.call = call ∧ ∀ call data, event ≠ .register call data) :
    final (machine config supabase) s events = s := by
  induction events with
  | nil => rfl
  | cons event rest ih =>
    obtain ⟨same,begun⟩ := own event List.mem_cons_self
    have idle : (machine config supabase).next s event = s := next_threw (same ▸ threw) begun
    rw [final_cons,idle]
    exact ih (fun other present => own other (List.mem_cons_of_mem _ present))

theorem final_not_returns (config : SupabaseConfig) (supabase : Supabase) {s : State} {call : Nat} {data : RegisterRequest}
    {error : Thrown} (threw : s.calls call = some ⟨data,.threw error⟩) (events : List Event)
    (own : ∀ event ∈ events, event.call = call ∧ ∀ call data, event ≠ .register call data) :
    ¬Returns (final (machine config supabase) s events) call := by
  rw [final_threw threw events own]
  intro returns
  obtain ⟨data,user,found⟩ := returns
  simp [threw] at found

section Lone

variable {config : SupabaseConfig} (supabase : Supabase) {s : State} {data : RegisterRequest}
  {supabaseId id : String}

theorem lone_returns_iff (ready : SignUpReady config s supabaseId id) (call : Nat) (user : Bool)
    (passwordHash : String) (now : Nat) :
    Returns (final (machine config supabase) s (lone call data supabaseId user passwordHash id now)) call ↔
      (findByEmail s.users data.email = none ∧ findByUsername s.users data.username = none) ∧
        create s.users (userData data (if user then some supabaseId else none) passwordHash) id now ≠
          none := by
  obtain ⟨configured,_,_⟩ := ready
  cases email : findByEmail s.users data.email with
  | some row =>
    have threw : ((machine config supabase).next ((machine config supabase).next s (.register call data))
        (.findByEmail call (.ok ()))).calls call =
          some ⟨data,.threw (.conflict "Email already in use")⟩ := by
      simp [machine,next,State.setCall,email]
    have lost := final_not_returns config supabase threw ((lone call data supabaseId user passwordHash id now).drop 2)
      (by simp [lone,Event.call])
    simpa [lone] using lost
  | none =>
    cases username : findByUsername s.users data.username with
    | some row =>
      have threw : ((machine config supabase).next ((machine config supabase).next ((machine config supabase).next s
          (.register call data)) (.findByEmail call (.ok ()))) (.findByUsername call (.ok ()))).calls
            call = some ⟨data,.threw (.conflict "Username already in use")⟩ := by
        simp [machine,next,State.setCall,email,username]
      have lost := final_not_returns config supabase threw
        ((lone call data supabaseId user passwordHash id now).drop 3) (by simp [lone,Event.call])
      simpa [lone] using lost
    | none =>
      cases created : create s.users
          (userData data (if user then some supabaseId else none) passwordHash) id now with
      | none =>
        simp [lone,machine,next,State.setCall,email,username,configured,created,signUp,SignUpReply.pc,Returns]
      | some grown =>
        simp [lone,machine,next,State.setCall,email,username,configured,created,signUp,SignUpReply.pc,Returns]

def AvailabilityAgrees (config : SupabaseConfig) (supabase : Supabase) (s : State) (events : List Event) (call : Nat)
    (data : RegisterRequest) : Prop :=
  Returns (final (machine config supabase) s events) call ↔ ¬ActiveMatch s.users data

/-- Once both pre-checks have found nothing, the insertion is not refused. -/
def CreateCannotFail (users : UsersTable) (data : RegisterRequest) (row : CreateUserData)
    (id : String) (now : Nat) : Prop :=
  findByEmail users data.email = none → findByUsername users data.username = none →
    create users row id now ≠ none

/-- The pre-checks decide a lone registration exactly when no soft-deleted row matches, or an
active one matches anyway. -/
theorem availability_iff (ready : SignUpReady config s supabaseId id) (call : Nat) (user : Bool)
    (passwordHash : String) (now : Nat) :
    (AvailabilityAgrees config supabase s (lone call data supabaseId user passwordHash id now) call data ↔
        ¬DeletedMatch s.users data ∨ ActiveMatch s.users data) ∧
      (CreateCannotFail s.users data
          (userData data (if user then some supabaseId else none) passwordHash) id now ↔
        ¬DeletedMatch s.users data ∨ ActiveMatch s.users data) := by
  have refused := create_none_iff data ready.unlinked ready.unused user passwordHash now
  have free := prechecks_iff s.users data
  constructor
  · unfold AvailabilityAgrees
    rw [lone_returns_iff supabase ready,free,ne_eq,refused]
    tauto
  · have curried : CreateCannotFail s.users data
        (userData data (if user then some supabaseId else none) passwordHash) id now ↔
          (¬ActiveMatch s.users data → ¬(ActiveMatch s.users data ∨ DeletedMatch s.users data)) := by
      rw [← free,← refused]
      exact ⟨fun safe both => safe both.1 both.2,fun safe email username => safe ⟨email,username⟩⟩
    rw [curried]
    tauto

end Lone

def goneUser : User := ⟨"u1",none,"ana@tribehub.io","ana",none,0,some 5⟩

def goneState : State :=
  ⟨⟨[goneUser],List.pairwise_singleton _ _⟩,[],fun _ => none⟩

theorem gone_ready : SignUpReady tribe goneState "s1" "u2" where
  configured := rfl
  unlinked := by decide
  unused := by decide

theorem availability_gone :
    SignUpReady tribe goneState "s1" "u2" ∧
      (AvailabilityAgrees tribe autoConfirm goneState
        (lone 0 ⟨"ana@tribehub.io","ana2","secret"⟩ "s1" true "digest" "u2" 9) 0
          ⟨"ana@tribehub.io","ana2","secret"⟩ ↔
        ¬DeletedMatch goneState.users ⟨"ana@tribehub.io","ana2","secret"⟩ ∨
          ActiveMatch goneState.users ⟨"ana@tribehub.io","ana2","secret"⟩) :=
  ⟨gone_ready,(availability_iff autoConfirm gone_ready 0 true "digest" 9).1⟩

/-- The email of a soft-deleted user passes the pre-checks, and the insertion is refused. -/
theorem gone_email_unavailable :
    ¬∀ s data supabaseId id call user passwordHash now, SignUpReady tribe s supabaseId id →
      AvailabilityAgrees tribe autoConfirm s (lone call data supabaseId user passwordHash id now) call data := by
  intro promised
  have agrees := promised goneState ⟨"ana@tribehub.io","ana2","secret"⟩ "s1" "u2" 0 true "digest" 9
    gone_ready
  have deleted : DeletedMatch goneState.users ⟨"ana@tribehub.io","ana2","secret"⟩ :=
    ⟨goneUser,List.mem_singleton.mpr rfl,by decide,Or.inl rfl⟩
  have inactive : ¬ActiveMatch goneState.users ⟨"ana@tribehub.io","ana2","secret"⟩ := by
    intro active
    obtain ⟨user,present,live,_⟩ := active
    obtain rfl := List.mem_singleton.mp present
    exact absurd live (by decide)
  have inserted := ((lone_returns_iff autoConfirm gone_ready 0 true "digest" 9).mp (agrees.mpr inactive)).2
  exact inserted ((create_none_iff _ gone_ready.unlinked gone_ready.unused true "digest" 9).mpr
    (Or.inr deleted))

end TribeHub.Auth
