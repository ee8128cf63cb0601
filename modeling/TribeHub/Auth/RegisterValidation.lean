import TribeHub.Auth.Logout
import TribeHub.Auth.RegistrationOrigin
import TribeHub.Library.Simulation

/-! The global ValidationPipe in front of `POST /auth/register`. The pipe and the checks of
class-validator are parameters; the DTO, its own decorator and the exception factory are
those of the application. What passes the pipe is what the users table gets. -/
namespace TribeHub.Auth
open Transition

/-- One decorator; the value is `none` where the object lacks the property. -/
structure Constraint where
  message : String
  validate : Option Json → Bool

/-- The decorators of a property apply from the last to the first. -/
structure Property where
  name : String
  constraints : List Constraint

structure StrongPasswordOptions where
  minLength : Nat
  minLowercase : Nat
  minNumbers : Nat
  minSymbols : Nat

/-- The checks of class-validator that the DTO uses, and their own messages. -/
structure ClassValidator where
  isNotEmpty : Option Json → Bool
  isEmail : Option Json → Bool
  isStrongPassword : StrongPasswordOptions → Option Json → Bool
  emailMessage : String
  strongPasswordMessage : String

/-- A value that is not empty is no empty string; emails and strong passwords are strings. -/
structure ClassValidator.Documented (validators : ClassValidator) : Prop where
  empty : validators.isNotEmpty (some (.string "")) = false
  email : ∀ value, validators.isEmail value = true → ∃ text, value = some (.string text)
  password : ∀ options value, validators.isStrongPassword options value = true →
    ∃ text, value = some (.string text)

/-- The `validate` of the NoSpaces decorator. -/
def noSpaces : Option Json → Bool
  | some (.string value) => !value.toList.any Js.isSpace
  | _ => false

def passwordOptions : StrongPasswordOptions := ⟨8,1,1,1⟩

def registerRequestDto (validators : ClassValidator) : List Property :=
  [⟨"email",[⟨"Campo email no debe ir vacío",validators.isNotEmpty⟩,
      ⟨validators.emailMessage,validators.isEmail⟩]⟩,
    ⟨"username",[⟨"No debe tener espacio(s)",noSpaces⟩,
      ⟨"Nombre de usuario no debe ir vacío",validators.isNotEmpty⟩]⟩,
    ⟨"password",[⟨validators.strongPasswordMessage,validators.isStrongPassword passwordOptions⟩,
      ⟨"La contraseña no debe ir vacía",validators.isNotEmpty⟩]⟩]

/-- `constraints` lists the name and the message of each failed check. -/
structure ValidationError where
  property : String
  constraints : Option (List (String × String))

structure FieldError where
  field : String
  errors : List String

structure BadRequest where
  message : String
  errors : List FieldError

/-- The `exceptionFactory` that main.ts gives the pipe. -/
def exceptionFactory (errors : List ValidationError) : BadRequest where
  message := "Errores de validación"
  errors := errors.map (fun error => ⟨error.property,(error.constraints.getD []).map Prod.snd⟩)

/-- What the pipe makes of a body for a class with these properties: the members of the instance
that the handler gets, or errors. -/
abbrev ValidationPipe := List Property → Json → Except (List ValidationError) (List (String × Json))

def transform (pipe : ValidationPipe) (dto : List Property) (body : Json) :
    Except BadRequest (List (String × Json)) :=
  (pipe dto body).mapError exceptionFactory

/-- An instance that the pipe lets through passes every decorator of its class. -/
def Validates (pipe : ValidationPipe) : Prop :=
  ∀ dto body instance_members, pipe dto body = .ok instance_members → ∀ property ∈ dto,
    ∀ constraint ∈ property.constraints,
      constraint.validate (instance_members.lookup property.name) = true

def readString (members : List (String × Json)) (name : String) : Option String :=
  match members.lookup name with
  | some (.string text) => some text
  | _ => none

/-- What AuthService.register destructures of the instance. -/
def registerRequest (members : List (String × Json)) : Option RegisterRequest := do
  let email ← readString members "email"
  let username ← readString members "username"
  let password ← readString members "password"
  pure ⟨email,username,password⟩

def Accepts (validators : ClassValidator) (pipe : ValidationPipe) (body : Json) (data : RegisterRequest) :
    Prop :=
  ∃ members, transform pipe (registerRequestDto validators) body = .ok members ∧
    registerRequest members = some data

structure WellFormed (validators : ClassValidator) (data : RegisterRequest) : Prop where
  email : data.email ≠ "" ∧ validators.isEmail (some (.string data.email)) = true
  username : data.username ≠ "" ∧ ∀ c ∈ data.username.toList, Js.isSpace c = false
  password : data.password ≠ "" ∧
    validators.isStrongPassword passwordOptions (some (.string data.password)) = true

section Accepted

variable {validators : ClassValidator} {pipe : ValidationPipe} {members : List (String × Json)}

theorem transform_ok {dto : List Property} {body : Json} :
    transform pipe dto body = .ok members ↔ pipe dto body = .ok members := by
  cases result : pipe dto body with
  | error errors => simp [transform,result,Except.mapError]
  | ok value => simp [transform,result,Except.mapError]

theorem readString_some {name text : String} (found : members.lookup name = some (.string text)) :
    readString members name = some text := by
  simp [readString,found]

theorem isNotEmpty_text (documented : validators.Documented) {text : String}
    (passes : validators.isNotEmpty (some (.string text)) = true) : text ≠ "" := by
  rintro rfl
  rw [documented.empty] at passes
  contradiction

theorem noSpaces_some {value : Option Json} (passes : noSpaces value = true) :
    ∃ text, value = some (.string text) ∧ ∀ c ∈ text.toList, Js.isSpace c = false := by
  unfold noSpaces at passes
  split at passes
  · rename_i text
    exact ⟨text,rfl,by simpa using passes⟩
  · contradiction

/-- The service finds three strings in whatever the pipe lets through, each past its checks. -/
theorem accepted_wellFormed (documented : validators.Documented) (validates : Validates pipe) {body : Json}
    (accepted : transform pipe (registerRequestDto validators) body = .ok members) :
    ∃ data, registerRequest members = some data ∧ WellFormed validators data := by
  have passes := validates _ body members (transform_ok.mp accepted)
  simp only [registerRequestDto,List.forall_mem_cons,List.not_mem_nil,false_implies,implies_true,
    and_true] at passes
  obtain ⟨⟨emailSome,emailTest⟩,⟨usernameTest,usernameSome⟩,passwordTest,passwordSome⟩ := passes
  obtain ⟨email,readEmail⟩ := documented.email _ emailTest
  obtain ⟨username,readUsername,spaceless⟩ := noSpaces_some usernameTest
  obtain ⟨password,readPassword⟩ := documented.password _ _ passwordTest
  rw [readEmail] at emailSome emailTest
  rw [readUsername] at usernameSome
  rw [readPassword] at passwordSome passwordTest
  refine ⟨⟨email,username,password⟩,?_,?_⟩
  · simp [registerRequest,readString_some readEmail,readString_some readUsername,
      readString_some readPassword]
  · exact ⟨⟨isNotEmpty_text documented emailSome,emailTest⟩,
      ⟨isNotEmpty_text documented usernameSome,spaceless⟩,
      ⟨isNotEmpty_text documented passwordSome,passwordTest⟩⟩

theorem Accepts.wellFormed (documented : validators.Documented) (validates : Validates pipe) {body : Json}
    {data : RegisterRequest} (accepts : Accepts validators pipe body data) : WellFormed validators data := by
  obtain ⟨members,accepted,requested⟩ := accepts
  obtain ⟨read,same,wellFormed⟩ := accepted_wellFormed documented validates accepted
  obtain rfl := Option.some.inj (requested.symm.trans same)
  exact wellFormed

end Accepted

/-- A registration begins with a body that has passed the pipe. -/
def Validated (validators : ClassValidator) (pipe : ValidationPipe) (_ : State) : Event → Prop
  | .register _ data => ∃ body, Accepts validators pipe body data
  | _ => True

/-- Behind the pipe, in every interleaving, the emails and usernames that reach the users table
and the emails that get an account at Supabase have passed their checks. -/
theorem validated_registrations {config : SupabaseConfig} {supabase : Supabase}
    {validators : ClassValidator} {pipe : ValidationPipe} (documented : validators.Documented)
    (validates : Validates pipe)
    (run : Run ((machine config supabase).restrict (Validated validators pipe))) (i : Nat) :
    (∀ row ∈ (run.relax.state i).users.rows, row ∈ run.start.users.rows ∨
      ∃ data, WellFormed validators data ∧ row.email = data.email ∧ row.username = data.username) ∧
    ∀ account ∈ (run.relax.state i).accounts, account ∈ run.start.accounts ∨
      ∃ data, WellFormed validators data ∧ account.email = data.email := by
  have requested {call : Nat} {record : RegisterCall}
      (found : (run.relax.state i).calls call = some record) : WellFormed validators record.data := by
    obtain ⟨j,registers⟩ := registered_run run.relax i call record found
    obtain ⟨body,accepts⟩ := run.relax_condition registers
    exact accepts.wellFormed documented validates
  have origin := origin_run run.relax i
  constructor
  · intro row present
    rcases origin.rows row present with old | ⟨call,record,found,_,email,username⟩
    · exact Or.inl old
    · exact Or.inr ⟨record.data,requested found,email,username⟩
  · intro account present
    rcases origin.accounts account present with old | ⟨call,record,found,_,email⟩
    · exact Or.inl old
    · exact Or.inr ⟨record.data,requested found,email⟩

def ofString (test : String → Bool) : Option Json → Bool
  | some (.string text) => test text
  | _ => false

def plainValidators : ClassValidator where
  isNotEmpty
    | none => false
    | some .null => false
    | some (.string text) => text ≠ ""
    | some _ => true
  isEmail := ofString (fun text => '@' ∈ text.toList)
  isStrongPassword options := ofString (fun text => options.minLength ≤ text.length)
  emailMessage := "email must be an email"
  strongPasswordMessage := "password is not strong enough"

theorem ofString_some {test : String → Bool} {value : Option Json} (passes : ofString test value = true) :
    ∃ text, value = some (.string text) := by
  unfold ofString at passes
  split at passes
  · exact ⟨_,rfl⟩
  · contradiction

theorem plainValidators_documented : plainValidators.Documented :=
  ⟨by decide,fun _ => ofString_some,fun _ _ => ofString_some⟩

def Property.passes (members : List (String × Json)) (property : Property) : Bool :=
  property.constraints.all (fun constraint => constraint.validate (members.lookup property.name))

/-- A pipe for bodies without inherited or undeclared members. -/
def plainPipe : ValidationPipe := fun dto body =>
  match body with
  | .object members =>
    if dto.all (Property.passes members) then .ok members
    else .error ((dto.filter (fun property => !property.passes members)).map (fun property =>
      ⟨property.name,none⟩))
  | _ => .error (dto.map (fun property => ⟨property.name,none⟩))

theorem plainPipe_validates : Validates plainPipe := by
  intro dto body members accepted property declared constraint listed
  cases body with
  | object own =>
    by_cases passes : dto.all (Property.passes own) = true
    · simp only [plainPipe,passes,if_true,Except.ok.injEq] at accepted
      subst accepted
      exact List.all_eq_true.mp (List.all_eq_true.mp passes property declared) constraint listed
    · simp [plainPipe,passes] at accepted
  | _ => simp [plainPipe] at accepted

def anaBody : Json :=
  .object [("email",.string "ana@tribe.es"),("username",.string "ana"),("password",.string "Secure@123")]

theorem ana_accepted : Accepts plainValidators plainPipe anaBody ⟨"ana@tribe.es","ana","Secure@123"⟩ := by
  refine ⟨[("email",.string "ana@tribe.es"),("username",.string "ana"),("password",.string "Secure@123")],
    transform_ok.mpr ?_,?_⟩
  · have long : 8 ≤ "Secure@123".length := by decide
    simp [plainPipe,anaBody,registerRequestDto,Property.passes,plainValidators,ofString,noSpaces,Js.isSpace,
      passwordOptions,List.lookup_cons,long]
  · simp [registerRequest,readString,List.lookup_cons]

def validated : Run ((machine tribe autoConfirm).restrict (Validated plainValidators plainPipe)) where
  start := emptyStores
  events := [.register 0 ⟨"ana@tribe.es","ana","Secure@123"⟩,.findByEmail 0 (.ok ()),
    .findByUsername 0 (.ok ()),.signUp 0 ⟨some "a1",.user (some "a1")⟩,.hash 0 (.ok "argon2"),
    .create 0 "u1" 7 .done]
  starts := emptyStores_initial
  legal := by
    refine ⟨⟨rfl,_,ana_accepted⟩,⟨⟨_,rfl⟩,trivial⟩,⟨⟨_,rfl⟩,trivial⟩,
      ⟨⟨⟨_,rfl,Or.inr ⟨?_,_,rfl⟩⟩,?_⟩,trivial⟩,⟨⟨_,_,rfl⟩,trivial⟩,⟨⟨⟨_,_,_,rfl⟩,?_⟩,trivial⟩,trivial⟩
    · exact fun ⟨account,present,_⟩ => by cases present
    · exact fun _ _ account present => by cases present
    · exact fun user present => by cases present

theorem validated_row : ∃ row ∈ (validated.relax.state 6).users.rows,
    ∃ data, WellFormed plainValidators data ∧ row.email = data.email ∧ row.username = data.username := by
  obtain ⟨rows,_⟩ := validated_registrations plainValidators_documented plainPipe_validates validated 6
  have present : (⟨"u1",some "a1","ana@tribe.es","ana",some "argon2",7,none⟩ : User) ∈
      (validated.relax.state 6).users.rows := List.mem_singleton.mpr rfl
  refine ⟨_,present,(rows _ present).resolve_left (fun old => ?_)⟩
  cases old

end TribeHub.Auth
