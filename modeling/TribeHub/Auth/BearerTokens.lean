import TribeHub.Auth.Logout

/-! The three entry points that verify a Bearer token. They read the secret at three moments
of the start-up: the guard when its module is imported, the middleware in `bootstrap`, after
ConfigModule has loaded the env file, and the admin guard at each request. -/
namespace TribeHub.Auth

abbrev Environment := String → Option String

/-- ConfigModule adds the keys of its file that `process.env` does not have. -/
def loadEnvFile (processEnv file : Environment) : Environment := fun key =>
  match processEnv key with
  | some value => some value
  | none => file key

def envFilePath (processEnv : Environment) : String :=
  ".env." ++ (processEnv "NODE_ENV").getD "development"

structure Process where
  guardSecret : Option String
  jwtSecret : Option String
  processEnv : Environment

/-- Imports, then ConfigModule, then `bootstrap`. A missing file has no keys. -/
def startup (processEnv : Environment) (files : String → Environment) : Process :=
  let guardSecret := processEnv "SUPABASE_JWT_SECRET"
  let processEnv := loadEnvFile processEnv (files (envFilePath processEnv))
  let jwtSecret := processEnv "SUPABASE_JWT_SECRET"
  ⟨guardSecret,jwtSecret,processEnv⟩

structure Payload where
  value : Json
  nonNull : value ≠ .null

/-- `verify` of jsonwebtoken. It throws on the empty token; `none` is a thrown value that is
no Error, `some name` an Error of that name. -/
structure Verifier where
  verify : String → String → Except (Option String) Payload
  empty : ∀ secret, ∃ thrown, verify "" secret = .error thrown

def Json.member (name : String) : Json → Option Json
  | .object members => members.lookup name
  | _ => none

/-- `decoded.app_metadata?.role !== 'admin'` -/
def Payload.notAdmin (payload : Payload) : Bool :=
  match (payload.value.member "app_metadata").bind (Json.member "role") with
  | some (.string role) => role ≠ "admin"
  | _ => true

inductive Denial where
  | unauthorized (message : String)
  | forbidden (message : String)
  deriving DecidableEq

def Denial.status : Denial → Nat
  | .unauthorized _ => 401
  | .forbidden _ => 403

/-- `authHeader.replace('Bearer ', '')` of a header that starts with it. -/
def bearerToken (authHeader : Option String) : Option String :=
  match authHeader with
  | none => none
  | some text =>
    if "Bearer ".toList.isPrefixOf text.toList then some (.ofList (text.toList.drop 7)) else none

def verifyMessage (thrown : Option String) : String :=
  match thrown.getD "" with
  | "TokenExpiredError" => "Token expired"
  | "NotBeforeError" => "Token not active"
  | "JsonWebTokenError" => "Malformed token or invalid signature"
  | _ => "JWT authentication error"

structure GuardResult where
  outcome : Except Denial (Payload × String)
  recordedInvalidToken : Bool

def SupabaseAuthGuard.canActivate (guardSecret : Option String) (verifier : Verifier)
    (authHeader : Option String) : GuardResult :=
  match bearerToken authHeader with
  | none => ⟨.error (.unauthorized "Missing or invalid Authorization header"),false⟩
  | some token =>
    if token = "" then ⟨.error (.unauthorized "Missing token"),false⟩
    else if missing guardSecret then ⟨.error (.unauthorized "JWT secret not configured"),false⟩
    else
      match verifier.verify token (guardSecret.getD "") with
      | .ok decoded => ⟨.ok (decoded,token),false⟩
      | .error thrown => ⟨.error (.unauthorized (verifyMessage thrown)),true⟩

def JwtAdminGuard.canActivate (processEnv : Environment) (verifier : Verifier)
    (authHeader : Option String) : Except Denial Payload :=
  match bearerToken authHeader with
  | none => .error (.unauthorized "Missing or invalid Authorization header")
  | some token =>
    if token = "" then .error (.unauthorized "Missing token")
    else
      let jwtSecret := processEnv "SUPABASE_JWT_SECRET"
      if missing jwtSecret then .error (.unauthorized "JWT secret not configured")
      else
        match verifier.verify token (jwtSecret.getD "") with
        | .error thrown => .error (.unauthorized (verifyMessage thrown))
        | .ok decoded =>
          if decoded.notAdmin then .error (.forbidden "Admin role required") else .ok decoded

/-- The middleware of `/admin/queues`; `ok` is a call of `next`. -/
def adminQueues (jwtSecret : Option String) (verifier : Verifier) (authHeader : Option String) :
    Except Denial Unit :=
  match bearerToken authHeader with
  | none => .error (.unauthorized "Unauthorized")
  | some token =>
    if missing jwtSecret then .error (.unauthorized "JWT secret not configured")
    else
      match verifier.verify token (jwtSecret.getD "") with
      | .ok decoded => if decoded.notAdmin then .error (.forbidden "Forbidden") else .ok ()
      | .error _ => .error (.unauthorized "Unauthorized")

def answered {α : Type} : Except Denial α → Option Nat
  | .ok _ => none
  | .error denial => some denial.status

/-- The guard accepts what the others do not answer 401, and these two agree. -/
structure EntryPointsAgree (process : Process) (verifier : Verifier) (authHeader : Option String) :
    Prop where
  adminGuard : answered (SupabaseAuthGuard.canActivate process.guardSecret verifier authHeader).outcome =
    none ↔ answered (JwtAdminGuard.canActivate process.processEnv verifier authHeader) ≠ some 401
  middleware : answered (SupabaseAuthGuard.canActivate process.guardSecret verifier authHeader).outcome =
    none ↔ answered (adminQueues process.jwtSecret verifier authHeader) ≠ some 401
  admins : answered (JwtAdminGuard.canActivate process.processEnv verifier authHeader) =
    answered (adminQueues process.jwtSecret verifier authHeader)

def Verifies (secret : Option String) (verifier : Verifier) (authHeader : Option String) : Prop :=
  secret.getD "" ≠ "" ∧ ∃ token, bearerToken authHeader = some token ∧
    ∃ decoded, verifier.verify token (secret.getD "") = .ok decoded

/-- The payload of the token that the header carries, if it verifies under the secret. -/
def verifiedPayload (secret : Option String) (verifier : Verifier) (authHeader : Option String) :
    Option Payload :=
  if missing secret then none
  else (bearerToken authHeader).bind (fun token => (verifier.verify token (secret.getD "")).toOption)

def adminAnswer : Option Payload → Option Nat
  | none => some 401
  | some decoded => if decoded.notAdmin then some 403 else none

theorem adminAnswer_unauthorized (verified : Option Payload) :
    adminAnswer verified ≠ some 401 ↔ verified.isSome = true := by
  cases verified with
  | none => simp [adminAnswer]
  | some decoded => cases admin : decoded.notAdmin <;> simp [adminAnswer,admin]

section Entries

variable (verifier : Verifier) (authHeader : Option String)

theorem verifies_iff (secret : Option String) :
    Verifies secret verifier authHeader ↔ (verifiedPayload secret verifier authHeader).isSome = true := by
  unfold Verifies verifiedPayload missing
  cases found : bearerToken authHeader with
  | none => simp
  | some token =>
    by_cases unset : secret.getD "" = ""
    · simp [unset]
    · cases verified : verifier.verify token (secret.getD "") with
      | error thrown => simp [unset,verified,Except.toOption]
      | ok decoded => simp [unset,verified,Except.toOption]

theorem verifiedPayload_empty (secret : Option String) (carried : bearerToken authHeader = some "") :
    verifiedPayload secret verifier authHeader = none := by
  obtain ⟨thrown,throws⟩ := verifier.empty (secret.getD "")
  simp [verifiedPayload,carried,throws,Except.toOption]

theorem supabaseGuard_answered (secret : Option String) :
    answered (SupabaseAuthGuard.canActivate secret verifier authHeader).outcome =
      if (verifiedPayload secret verifier authHeader).isSome then none else some 401 := by
  unfold SupabaseAuthGuard.canActivate
  cases found : bearerToken authHeader with
  | none => simp [answered,Denial.status,verifiedPayload,found]
  | some token =>
    by_cases empty : token = ""
    · subst empty
      simp [answered,Denial.status,verifiedPayload_empty verifier authHeader secret found]
    · cases unset : missing secret with
      | true => simp [answered,Denial.status,verifiedPayload,empty,unset]
      | false =>
        cases verified : verifier.verify token (secret.getD "") with
        | error thrown =>
          simp [answered,Denial.status,verifiedPayload,found,empty,unset,verified,Except.toOption]
        | ok decoded =>
          simp [answered,verifiedPayload,found,empty,unset,verified,Except.toOption]

theorem adminGuard_answered (processEnv : Environment) :
    answered (JwtAdminGuard.canActivate processEnv verifier authHeader) =
      adminAnswer (verifiedPayload (processEnv "SUPABASE_JWT_SECRET") verifier authHeader) := by
  unfold JwtAdminGuard.canActivate
  generalize processEnv "SUPABASE_JWT_SECRET" = secret
  cases found : bearerToken authHeader with
  | none => simp [answered,Denial.status,verifiedPayload,found,adminAnswer]
  | some token =>
    by_cases empty : token = ""
    · subst empty
      simp [answered,Denial.status,verifiedPayload_empty verifier authHeader secret found,adminAnswer]
    · cases unset : missing secret with
      | true => simp [answered,Denial.status,verifiedPayload,empty,unset,adminAnswer]
      | false =>
        cases verified : verifier.verify token (secret.getD "") with
        | error thrown =>
          simp [answered,Denial.status,verifiedPayload,found,empty,unset,verified,adminAnswer,
            Except.toOption]
        | ok decoded =>
          cases admin : decoded.notAdmin <;>
            simp [answered,Denial.status,verifiedPayload,found,empty,unset,verified,adminAnswer,admin,
              Except.toOption]

/-- The middleware leaves the empty token to `verify`, which throws on it. -/
theorem adminQueues_answered (secret : Option String) :
    answered (adminQueues secret verifier authHeader) =
      adminAnswer (verifiedPayload secret verifier authHeader) := by
  unfold adminQueues
  cases found : bearerToken authHeader with
  | none => simp [answered,Denial.status,verifiedPayload,found,adminAnswer]
  | some token =>
    cases unset : missing secret with
    | true => simp [answered,Denial.status,verifiedPayload,unset,adminAnswer]
    | false =>
      cases verified : verifier.verify token (secret.getD "") with
      | error thrown =>
        simp [answered,Denial.status,verifiedPayload,found,unset,verified,adminAnswer,Except.toOption]
      | ok decoded =>
        cases admin : decoded.notAdmin <;>
          simp [answered,Denial.status,verifiedPayload,found,unset,verified,adminAnswer,admin,
            Except.toOption]

theorem not_verifies_unset : ¬Verifies none verifier authHeader := fun verifies => verifies.1 rfl

theorem agree_iff_secrets (process : Process)
    (bootstrapped : process.jwtSecret = process.processEnv "SUPABASE_JWT_SECRET") :
    EntryPointsAgree process verifier authHeader ↔
      (Verifies process.guardSecret verifier authHeader ↔
        Verifies process.jwtSecret verifier authHeader) := by
  have accepts : answered (SupabaseAuthGuard.canActivate process.guardSecret verifier authHeader).outcome =
      none ↔ Verifies process.guardSecret verifier authHeader := by
    rw [supabaseGuard_answered,verifies_iff]
    split <;> simp [*]
  have admits : answered (adminQueues process.jwtSecret verifier authHeader) ≠ some 401 ↔
      Verifies process.jwtSecret verifier authHeader := by
    rw [adminQueues_answered,verifies_iff,adminAnswer_unauthorized]
  have admins : answered (JwtAdminGuard.canActivate process.processEnv verifier authHeader) =
      answered (adminQueues process.jwtSecret verifier authHeader) := by
    rw [adminGuard_answered,adminQueues_answered,bootstrapped]
  constructor
  · intro agree
    rw [← accepts,← admits]
    exact agree.middleware
  · intro same
    refine ⟨?_,?_,admins⟩
    · rw [admins,accepts,admits]
      exact same
    · rw [accepts,admits]
      exact same

/-- The entry points agree unless the secret comes from the env file alone and the header
carries a token that verifies under it. -/
theorem entryPointsAgree_iff (processEnv : Environment) (files : String → Environment) :
    EntryPointsAgree (startup processEnv files) verifier authHeader ↔
      processEnv "SUPABASE_JWT_SECRET" ≠ none ∨
        ¬Verifies (files (envFilePath processEnv) "SUPABASE_JWT_SECRET") verifier authHeader := by
  rw [agree_iff_secrets verifier authHeader (startup processEnv files) rfl]
  have unset := not_verifies_unset verifier authHeader
  simp only [startup,loadEnvFile]
  cases present : processEnv "SUPABASE_JWT_SECRET" with
  | none => simp [unset]
  | some secret => simp

end Entries

def secretFile : String → Environment
  | ".env.development",key => if key = "SUPABASE_JWT_SECRET" then some "secret" else none
  | _,_ => none

def acceptingVerifier : Verifier where
  verify token _ :=
    if token = "" then .error (some "JsonWebTokenError") else .ok ⟨.object [],by simp⟩
  empty _ := ⟨_,rfl⟩

/-- With the secret in the env file only, the guard refuses a token that the others verify. -/
theorem file_secret_refused : ¬∀ processEnv files verifier authHeader,
    EntryPointsAgree (startup processEnv files) verifier authHeader := by
  intro promised
  have agree := promised (fun _ => none) secretFile acceptingVerifier (some "Bearer token")
  exact absurd (agree.middleware.mpr (by decide)) (by decide)

end TribeHub.Auth
