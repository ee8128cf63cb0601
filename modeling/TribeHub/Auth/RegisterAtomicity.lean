import TribeHub.Auth.Register

/-! What a failed registration leaves behind. Nothing is undone: an account that its sign-up
made stays at Supabase, and a row that its insertion wrote, though the reply got lost, stays
in the users table. -/
namespace TribeHub.Auth
open Transition

section Gains

variable {config : SupabaseConfig} {supabase : Supabase} (run : Run (machine config supabase))

/-- A step of the call before position `i` added the row to the users table. -/
def GainsRow (call i : Nat) (user : User) : Prop :=
  ∃ j event, j < i ∧ run.Happens j event ∧ event.call = call ∧
    user ∉ (run.state j).users.rows ∧ user ∈ (run.state (j+1)).users.rows

/-- A step of the call before position `i` added the account to Supabase. -/
def GainsAccount (call i : Nat) (account : Account) : Prop :=
  ∃ j event, j < i ∧ run.Happens j event ∧ event.call = call ∧
    account ∉ (run.state j).accounts ∧ account ∈ (run.state (j+1)).accounts

def Linked (users : UsersTable) (account : Account) : Prop :=
  ∃ user ∈ users.rows, user.supabaseId = some account.id

def Threw (s : State) (call : Nat) : Prop := ∃ data error, s.calls call = some ⟨data,.threw error⟩

/-- A call that threw has left no row, and no account without a row that links it. -/
def AllOrNothing (config : SupabaseConfig) (supabase : Supabase) : Prop :=
  ∀ (run : Run (machine config supabase)) call i, Threw (run.state i) call →
    (∀ user, ¬GainsRow run call i user) ∧ ∀ account, GainsAccount run call i account →
      account ∈ (run.state i).accounts → Linked (run.state i).users account

/-- Supabase made an account for a sign-up of the call. -/
def SignedUp (call i : Nat) : Prop :=
  ∃ j < i, ∃ id reply, run.Happens j (.signUp call ⟨some id,reply⟩)

/-- An insertion of the call was executed, whatever the call got to know of it, and no unique
index refused it. -/
def Executed (call i : Nat) : Prop :=
  ∃ j < i, ∃ id now outcome data supabaseUserId passwordHash,
    run.Happens j (.create call id now outcome) ∧ outcome.executed = true ∧
      (run.state j).calls call = some ⟨data,.create supabaseUserId passwordHash⟩ ∧
        create (run.state j).users (userData data supabaseUserId passwordHash) id now ≠ none

structure AccountAt (call j : Nat) (data : RegisterRequest) (account : Account) : Prop where
  occurs : ∃ id reply, run.Happens j (.signUp call ⟨some id,reply⟩)
  waits : (run.state j).calls call = some ⟨data,.signUp⟩
  requested : account.email = data.email ∧ account.username = data.username
  absent : account ∉ (run.state j).accounts
  grown : (run.state (j+1)).accounts = (run.state j).accounts ++ [account]

structure RowAt (call j : Nat) (data : RegisterRequest) (user : User) : Prop where
  occurs : ∃ id now outcome, run.Happens j (.create call id now outcome) ∧ outcome.executed = true
  waits : ∃ passwordHash,
    (run.state j).calls call = some ⟨data,.create user.supabaseId passwordHash⟩
  requested : user.email = data.email ∧ user.username = data.username
  absent : user ∉ (run.state j).users.rows
  grown : (run.state (j+1)).users.rows = (run.state j).users.rows ++ [user]

variable {run}

theorem accountAt_of_grown {j : Nat} {event : Event} (happens : run.Happens j event)
    {account : Account} (absent : account ∉ (run.state j).accounts)
    (present : account ∈ (run.state (j+1)).accounts) :
    ∃ data, AccountAt run event.call j data account := by
  rcases (run_move run happens).accounts with same | ⟨data,id,reply,equal,waiting,_,grown⟩
  · exact absurd (same ▸ present) absent
  · rw [grown] at present
    rcases List.mem_append.mp present with old | new
    · exact absurd old absent
    · obtain rfl := List.mem_singleton.mp new
      exact ⟨data,⟨id,reply,equal ▸ happens⟩,waiting,⟨rfl,rfl⟩,absent,grown⟩

theorem accountAt_of_signUp {call j : Nat} {id : String} {reply : SignUpReply}
    (happens : run.Happens j (.signUp call ⟨some id,reply⟩)) :
    ∃ data account, AccountAt run call j data account := by
  obtain ⟨⟨data,waiting,_⟩,fresh⟩ := run.enabled happens
  have unused := fresh id rfl
  refine ⟨data,⟨id,data.email,data.username⟩,⟨id,reply,happens⟩,waiting,⟨rfl,rfl⟩,
    fun present => unused _ present rfl,?_⟩
  rw [run.state_succ happens]
  change (next config _ _).accounts = _
  simp only [next,waiting,signUp]

theorem rowAt_of_grown {j : Nat} {event : Event} (happens : run.Happens j event) {user : User}
    (absent : user ∉ (run.state j).users.rows) (present : user ∈ (run.state (j+1)).users.rows) :
    ∃ data, RowAt run event.call j data user := by
  rcases (run_move run happens).rows with same |
    ⟨data,supabaseUserId,passwordHash,id,now,after,waiting,created,step,_⟩
  · exact absurd (same ▸ present) absent
  · have grown := (create_some created).1
    rw [grown] at present
    rcases List.mem_append.mp present with old | new
    · exact absurd old absent
    · obtain rfl := List.mem_singleton.mp new
      obtain ⟨_,_,_,outcome,equal,executed⟩ := step.ends
      exact ⟨data,⟨id,now,outcome,equal ▸ happens,executed⟩,⟨passwordHash,waiting⟩,⟨rfl,rfl⟩,absent,grown⟩

theorem rowAt_of_executed {call j now : Nat} {id : String} {outcome : CreateOutcome}
    {data : RegisterRequest} {supabaseUserId : Option String} {passwordHash : String}
    (happens : run.Happens j (.create call id now outcome)) (executed : outcome.executed = true)
    (waiting : (run.state j).calls call = some ⟨data,.create supabaseUserId passwordHash⟩)
    (allowed : create (run.state j).users (userData data supabaseUserId passwordHash) id now ≠ none) :
    RowAt run call j data ((userData data supabaseUserId passwordHash).row id now) := by
  obtain ⟨users,created⟩ := Option.ne_none_iff_exists'.mp allowed
  obtain ⟨grown,free⟩ := create_some created
  have after : (run.state (j+1)).users = users := by
    rw [run.state_succ happens]
    change (next config _ _).users = _
    cases outcome with
    | done => simp only [next,waiting,created]
    | failed ran code =>
      obtain rfl : ran = true := executed
      simp only [next,waiting,created,if_true,Option.getD_some]
  refine ⟨⟨id,now,outcome,happens,executed⟩,⟨passwordHash,waiting⟩,⟨rfl,rfl⟩,fun present => ?_,?_⟩
  · exact (free _ present).1 rfl
  · rw [after]
    exact grown

/-- A call adds one account at most, since it signs up once. -/
theorem AccountAt.unique {call j k : Nat} {data other : RegisterRequest} {account second : Account}
    (first : AccountAt run call j data account) (again : AccountAt run call k other second) :
    second = account := by
  obtain ⟨_,_,happens⟩ := first.occurs
  obtain ⟨_,_,occurs⟩ := again.occurs
  obtain rfl := step_once run happens first.waits occurs rfl again.waits rfl
  have same : [second] = [account] := List.append_cancel_left (again.grown.symm.trans first.grown)
  exact List.singleton_inj.mp same

/-- A call adds one row at most, since it inserts once. -/
theorem RowAt.unique {call j k : Nat} {data other : RegisterRequest} {user second : User}
    (first : RowAt run call j data user) (again : RowAt run call k other second) : second = user := by
  obtain ⟨_,_,_,happens,_⟩ := first.occurs
  obtain ⟨_,_,_,occurs,_⟩ := again.occurs
  obtain ⟨_,waiting⟩ := first.waits
  obtain ⟨_,found⟩ := again.waits
  obtain rfl := step_once run happens waiting occurs rfl found rfl
  have same : [second] = [user] := List.append_cancel_left (again.grown.symm.trans first.grown)
  exact List.singleton_inj.mp same

theorem AccountAt.gains_iff {call i j : Nat} {data : RegisterRequest} {account other : Account}
    (added : AccountAt run call j data account) (before : j < i) :
    GainsAccount run call i other ↔ other = account := by
  constructor
  · intro gains
    obtain ⟨k,event,_,occurs,rfl,absent,gained⟩ := gains
    obtain ⟨_,again⟩ := accountAt_of_grown occurs absent gained
    exact added.unique again
  · intro equal
    subst equal
    obtain ⟨_,_,happens⟩ := added.occurs
    exact ⟨j,_,before,happens,rfl,added.absent,by simp [added.grown]⟩

theorem RowAt.gains_iff {call i j : Nat} {data : RegisterRequest} {user other : User}
    (row : RowAt run call j data user) (before : j < i) : GainsRow run call i other ↔ other = user := by
  constructor
  · intro gains
    obtain ⟨k,event,_,occurs,rfl,absent,gained⟩ := gains
    obtain ⟨_,again⟩ := rowAt_of_grown occurs absent gained
    exact row.unique again
  · intro equal
    subst equal
    obtain ⟨_,_,_,happens,_⟩ := row.occurs
    exact ⟨j,_,before,happens,rfl,row.absent,by simp [row.grown]⟩

theorem account_stays {account : Account} {first : Nat} (present : account ∈ (run.state first).accounts) :
    ∀ k, first ≤ k → account ∈ (run.state k).accounts :=
  run.invariant_from first (fun s => account ∈ s.accounts) present
    (fun _ event _ happens held => (next_move config supabase _ event (run.enabled happens)).account_stays held)

theorem row_stays {user : User} {first : Nat} (present : user ∈ (run.state first).users.rows) :
    ∀ k, first ≤ k → user ∈ (run.state k).users.rows :=
  run.invariant_from first (fun s => user ∈ s.users.rows) present
    (fun _ event _ happens held => (next_move config supabase _ event (run.enabled happens)).row_stays held)

theorem GainsRow.mono {call i k : Nat} {user : User} (gains : GainsRow run call i user) (later : i ≤ k) :
    GainsRow run call k user := by
  obtain ⟨j,event,before,gain⟩ := gains
  exact ⟨j,event,Nat.lt_of_lt_of_le before later,gain⟩

theorem row_origin (i : Nat) : ∀ user ∈ (run.state i).users.rows, user ∈ run.start.users.rows ∨
    ∃ call, GainsRow run call i user ∧ Answered run i call user.supabaseId := by
  refine run.induct_from 0 (fun i => ∀ user ∈ (run.state i).users.rows, user ∈ run.start.users.rows ∨
    ∃ call, GainsRow run call i user ∧ Answered run i call user.supabaseId) ?_ ?_ ?_ i (Nat.zero_le i)
  · exact fun user present => Or.inl present
  · intro i _ _ same ih user present
    rw [same] at present
    rcases ih user present with old | ⟨call,gains,answered⟩
    · exact Or.inl old
    · exact Or.inr ⟨call,gains.mono (Nat.le_succ i),answered.mono run (Nat.le_succ i)⟩
  · intro i event _ happens _ ih user present
    by_cases before : user ∈ (run.state i).users.rows
    · rcases ih user before with old | ⟨call,gains,answered⟩
      · exact Or.inl old
      · exact Or.inr ⟨call,gains.mono (Nat.le_succ i),answered.mono run (Nat.le_succ i)⟩
    · obtain ⟨data,row⟩ := rowAt_of_grown happens before present
      obtain ⟨passwordHash,waiting⟩ := row.waits
      have answered := answered_run run i event.call _ user.supabaseId waiting rfl
      exact Or.inr ⟨event.call,⟨i,event,Nat.lt_succ_self i,happens,rfl,before,present⟩,
        answered.mono run (Nat.le_succ i)⟩

theorem thrown_rows {call i : Nat} {data : RegisterRequest} {error : Thrown}
    (threw : (run.state i).calls call = some ⟨data,.threw error⟩) :
    (¬Executed run call i → ∀ user, ¬GainsRow run call i user) ∧
      (Executed run call i → ∃ user, (∀ other, GainsRow run call i other ↔ other = user) ∧
        user.email = data.email ∧ user.username = data.username ∧
          ∀ k, i ≤ k → user ∈ (run.state k).users.rows) := by
  constructor
  · intro unexecuted user gains
    obtain ⟨j,event,before,happens,rfl,absent,present⟩ := gains
    rcases (run_move run happens).rows with same |
      ⟨owner,supabaseUserId,passwordHash,id,now,after,waiting,created,step,_⟩
    · exact absent (same ▸ present)
    · obtain ⟨_,_,_,outcome,equal,executed⟩ := step.ends
      exact unexecuted ⟨j,before,id,now,outcome,owner,supabaseUserId,passwordHash,equal ▸ happens,
        executed,waiting,by simp [created]⟩
  · intro ran
    obtain ⟨j,before,id,now,outcome,owner,supabaseUserId,passwordHash,happens,executed,waiting,allowed⟩ := ran
    have row := rowAt_of_executed happens executed waiting allowed
    obtain ⟨ended,read,kept,_⟩ := call_run run waiting i (Nat.le_of_lt before)
    obtain rfl := Option.some.inj (threw.symm.trans read)
    obtain rfl : data = owner := kept
    have present : (userData data supabaseUserId passwordHash).row id now ∈
        (run.state (j+1)).users.rows := by
      simp [row.grown]
    exact ⟨_,fun other => row.gains_iff before,rfl,rfl,fun k later => row_stays present k (by omega)⟩

theorem thrown_accounts {call i : Nat} {data : RegisterRequest} {error : Thrown}
    (threw : (run.state i).calls call = some ⟨data,.threw error⟩) :
    (¬SignedUp run call i → ∀ account, ¬GainsAccount run call i account) ∧
      (SignedUp run call i → ∃ account, (∀ other, GainsAccount run call i other ↔ other = account) ∧
        account.email = data.email ∧ account.username = data.username ∧
          ∀ k, i ≤ k → account ∈ (run.state k).accounts) := by
  constructor
  · intro unsigned account gains
    obtain ⟨j,event,before,happens,rfl,absent,present⟩ := gains
    obtain ⟨_,found⟩ := accountAt_of_grown happens absent present
    obtain ⟨id,reply,occurs⟩ := found.occurs
    exact unsigned ⟨j,before,id,reply,occurs⟩
  · intro signed
    obtain ⟨j,before,id,reply,happens⟩ := signed
    obtain ⟨owner,account,added⟩ := accountAt_of_signUp happens
    obtain ⟨ended,read,kept,_⟩ := call_run run added.waits i (Nat.le_of_lt before)
    obtain rfl := Option.some.inj (threw.symm.trans read)
    obtain rfl : data = owner := kept
    have present : account ∈ (run.state (j+1)).accounts := by
      simp [added.grown]
    exact ⟨account,fun other => added.gains_iff before,added.requested.1,added.requested.2,
      fun k later => account_stays present k (by omega)⟩

variable (run)

/-- What a call that throws leaves, whatever Supabase answers. It leaves a row exactly if its
insertion was executed all the same, and an account exactly if its sign-up made one, each of
its own request and for good. No row links the account unless it was there at the start or
its call, this one or another, was answered with that id. -/
theorem thrown_register_leaves {call i : Nat} {data : RegisterRequest} {error : Thrown}
    (threw : (run.state i).calls call = some ⟨data,.threw error⟩) :
    (¬Executed run call i → ∀ user, ¬GainsRow run call i user) ∧
    (Executed run call i → ∃ user, (∀ other, GainsRow run call i other ↔ other = user) ∧
      user.email = data.email ∧ user.username = data.username ∧
        ∀ k, i ≤ k → user ∈ (run.state k).users.rows) ∧
    (¬SignedUp run call i → ∀ account, ¬GainsAccount run call i account) ∧
    (SignedUp run call i → ∃ account, (∀ other, GainsAccount run call i other ↔ other = account) ∧
      account.email = data.email ∧ account.username = data.username ∧
        ∀ k, i ≤ k → account ∈ (run.state k).accounts ∧
          ∀ user ∈ (run.state k).users.rows, user.supabaseId = some account.id →
            user ∈ run.start.users.rows ∨
              ∃ other, GainsRow run other k user ∧ Answered run k other (some account.id)) := by
  obtain ⟨unexecuted,executed⟩ := thrown_rows threw
  obtain ⟨unsigned,signed⟩ := thrown_accounts threw
  refine ⟨unexecuted,executed,unsigned,fun made => ?_⟩
  obtain ⟨account,gains,email,username,stays⟩ := signed made
  refine ⟨account,gains,email,username,fun k later => ⟨stays k later,fun user present links => ?_⟩⟩
  rcases row_origin k user present with old | ⟨other,gained,answered⟩
  · exact Or.inl old
  · exact Or.inr ⟨other,gained,links ▸ answered⟩

end Gains

/-- A soft-deleted row still holds the email in the unique index. -/
def softDeleted : Run (machine tribe autoConfirm) where
  start := ⟨⟨[⟨"u1",some "a1","ana@tribe.es","ana",none,0,some 5⟩],List.pairwise_singleton _ _⟩,[],
    fun _ => none⟩
  events := [.register 0 ⟨"ana@tribe.es","anna","Secret#1"⟩,.findByEmail 0 (.ok ()),
    .findByUsername 0 (.ok ()),.signUp 0 ⟨some "a2",.user (some "a2")⟩,.hash 0 (.ok "argon2"),
    .create 0 "u2" 9 .done]
  starts := fun _ => rfl
  legal := by
    refine ⟨rfl,⟨_,rfl⟩,⟨_,rfl⟩,⟨⟨_,rfl,Or.inr ⟨?_,_,rfl⟩⟩,?_⟩,⟨_,_,rfl⟩,⟨⟨_,_,_,rfl⟩,?_⟩,trivial⟩
    · decide
    · exact fun _ _ account present => by cases present
    · decide

/-- The insertion is executed, but the connection is lost before the reply. -/
def lostReply : Run (machine tribe autoConfirm) where
  start := emptyStores
  events := [.register 0 ⟨"ana@tribe.es","ana","Secret#1"⟩,.findByEmail 0 (.ok ()),
    .findByUsername 0 (.ok ()),.signUp 0 ⟨some "a1",.user (some "a1")⟩,.hash 0 (.ok "argon2"),
    .create 0 "u1" 9 (.failed true (some "P1017"))]
  starts := emptyStores_initial
  legal := by
    refine ⟨rfl,⟨_,rfl⟩,⟨_,rfl⟩,⟨⟨_,rfl,Or.inr ⟨?_,_,rfl⟩⟩,?_⟩,⟨_,_,rfl⟩,⟨⟨_,_,_,rfl⟩,?_⟩,trivial⟩
    · exact fun ⟨account,present,_⟩ => by cases present
    · exact fun _ _ account present => by cases present
    · exact fun user present => by cases present

theorem lostReply_executed : Executed lostReply 0 6 :=
  ⟨5,by decide,"u1",9,_,_,_,_,rfl,rfl,rfl,Option.some_ne_none _⟩

theorem failed_registers_leave :
    (∃ account, GainsAccount softDeleted 0 6 account ∧ account ∈ (softDeleted.state 6).accounts) ∧
      ∃ user, GainsRow lostReply 0 6 user ∧ user ∈ (lostReply.state 6).users.rows := by
  constructor
  · have threw : (softDeleted.state 6).calls 0 = some ⟨_,.threw _⟩ := rfl
    obtain ⟨_,_,_,leaves⟩ := thrown_register_leaves softDeleted threw
    obtain ⟨account,gains,_,_,kept⟩ := leaves ⟨3,by decide,"a2",_,rfl⟩
    exact ⟨account,(gains account).mpr rfl,(kept 6 (Nat.le_refl 6)).1⟩
  · have threw : (lostReply.state 6).calls 0 = some ⟨_,.threw _⟩ := rfl
    obtain ⟨_,leaves,_⟩ := thrown_register_leaves lostReply threw
    obtain ⟨user,gains,_,_,kept⟩ := leaves lostReply_executed
    exact ⟨user,(gains user).mpr rfl,kept 6 (Nat.le_refl 6)⟩

/-- The account of the failed call remains, and the only row links another one. -/
theorem register_not_allOrNothing : ¬AllOrNothing tribe autoConfirm := by
  intro atomic
  have gains : GainsAccount softDeleted 0 6 ⟨"a2","ana@tribe.es","anna"⟩ :=
    ⟨3,_,by decide,rfl,rfl,(fun present => by cases present),List.mem_singleton.mpr rfl⟩
  obtain ⟨_,linked⟩ := atomic softDeleted 0 6 ⟨_,_,rfl⟩
  obtain ⟨user,present,links⟩ := linked _ gains (List.mem_singleton.mpr rfl)
  obtain rfl := List.mem_singleton.mp present
  simp at links

end TribeHub.Auth
