import TribeHub.Library.UniqueTable

/-! The users table and its repository. The unique indexes see every row, the
lookups only the rows that are not soft-deleted. -/
namespace TribeHub.Auth
open UniqueTable

structure User where
  id : String
  supabaseId : Option String
  email : String
  username : String
  passwordHash : Option String
  createdAt : Nat
  deletedAt : Option Nat
  deriving DecidableEq

def emailIndex : Index User String := fun user => some user.email

def usernameIndex : Index User String := fun user => some user.username

/-- The primary key and the three `@unique` columns. -/
def usersIndexes : List (Index User String) :=
  [fun user => some user.id,User.supabaseId,emailIndex,usernameIndex]

abbrev UsersTable := Table usersIndexes

structure CreateUserData where
  email : String
  username : String
  passwordHash : String
  supabaseId : Option String

def CreateUserData.row (data : CreateUserData) (id : String) (now : Nat) : User where
  id := id
  supabaseId := data.supabaseId
  email := data.email
  username := data.username
  passwordHash := some data.passwordHash
  createdAt := now
  deletedAt := none

/-- UsersRepository.create; `none` is the unique constraint violation P2002. -/
def create (users : UsersTable) (data : CreateUserData) (id : String) (now : Nat) :
    Option UsersTable := insert users (data.row id now)

def findByEmail (users : UsersTable) (email : String) : Option User :=
  users.rows.find? (fun user => user.email = email ∧ user.deletedAt = none)

def findByUsername (users : UsersTable) (username : String) : Option User :=
  users.rows.find? (fun user => user.username = username ∧ user.deletedAt = none)

/-- A created row had no rival under either index, soft-deleted rows included. -/
theorem create_some {users grown : UsersTable} {data : CreateUserData} {id : String} {now : Nat}
    (created : create users data id now = some grown) :
    grown.rows = users.rows ++ [data.row id now] ∧
      ∀ user ∈ users.rows, user.email ≠ data.email ∧ user.username ≠ data.username := by
  obtain ⟨free,rows⟩ := insert_some created
  refine ⟨rows,fun user present => ⟨fun same => ?_,fun same => ?_⟩⟩
  · apply free user present
    have listed : emailIndex ∈ usersIndexes := by simp [usersIndexes]
    exact clash_of_value listed (congrArg some same) rfl
  · apply free user present
    have listed : usernameIndex ∈ usersIndexes := by simp [usersIndexes]
    exact clash_of_value listed (congrArg some same) rfl

theorem create_none {users : UsersTable} {data : CreateUserData} {id : String} {now : Nat}
    (refused : create users data id now = none) :
    ∃ user ∈ users.rows, user.id = id ∨ (user.supabaseId ≠ none ∧ user.supabaseId = data.supabaseId) ∨
      user.email = data.email ∨ user.username = data.username := by
  obtain ⟨user,present,index,listed,some_value,same⟩ := insert_none refused
  refine ⟨user,present,?_⟩
  simp only [usersIndexes,List.mem_cons,List.not_mem_nil,or_false] at listed
  rcases listed with rfl | rfl | rfl | rfl
  · exact Or.inl (Option.some.inj same)
  · exact Or.inr (Or.inl ⟨some_value,same⟩)
  · exact Or.inr (Or.inr (Or.inl (Option.some.inj same)))
  · exact Or.inr (Or.inr (Or.inr (Option.some.inj same)))

end TribeHub.Auth
