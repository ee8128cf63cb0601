import TribeHub.Library.Js
import TribeHub.Auth.Register

/-! Logout as one request. AuthService.logout hashes the cookie before its `try` block
and absorbs what the two queries throw; AuthController.logout clears the cookies once
it has returned. -/
namespace TribeHub.Auth

inductive Json where
  | null
  | boolean (value : Bool)
  | number (value : Js.Number)
  | string (value : String)
  | array (elements : List Json)
  | object (members : List (String × Json))

def Json.truthy : Json → Bool
  | .null => false
  | .boolean value => value
  | .number value => value ≠ .nan ∧ value ≠ .finite 0
  | .string value => value ≠ ""
  | .array _ => true
  | .object _ => true

/-- What cookie-parser leaves under a name. Of a text after `j:` it keeps the parsed
value only if that is truthy. -/
inductive CookieValue where
  | absent
  | text (value : String)
  | parsed (value : Json) (truthy : value.truthy = true)

def CookieValue.value : CookieValue → Option Json
  | .absent => none
  | .text value => some (.string value)
  | .parsed value _ => some value

structure RefreshTokenRecord where
  id : String
  userId : String
  tokenHash : String
  revokedAt : Option Nat
  revocationReason : Option String
  createdAt : Nat
  expiresAt : Nat
  deriving DecidableEq

inductive LogoutLog where
  | noToken
  | tokenNotActive
  | success (userId : String)
  | dbError (message : String)
  deriving DecidableEq

def dbErrorMessage : Rejection → String
  | .error message => message
  | .other => "Unknown DB error"

/-- Where a logout is suspended, with what it carries, or how it ended. -/
inductive LogoutPc where
  | find (tokenHash : String)
  | revoke (tokenHash userId : String)
  | returned (log : LogoutLog)
  | threwTypeError

/-- `createHash('sha256').update(rawToken).digest('hex')`; `update` throws a TypeError on
every parsed value that is no string. -/
def tokenDigest (sha256 : String → String) : Json → Option String
  | .string value => some (sha256 value)
  | _ => none

def logoutStart (sha256 : String → String) (rawToken : Option Json) : LogoutPc :=
  match rawToken with
  | none => .returned .noToken
  | some value =>
    if value.truthy then
      match tokenDigest sha256 value with
      | some tokenHash => .find tokenHash
      | none => .threwTypeError
    else .returned .noToken

def logoutFound (tokenHash : String) : Except Rejection (Option RefreshTokenRecord) → LogoutPc
  | .error rejection => .returned (.dbError (dbErrorMessage rejection))
  | .ok none => .returned .tokenNotActive
  | .ok (some token) => .revoke tokenHash token.userId

def logoutRevoked (userId : String) : Except Rejection Unit → LogoutPc
  | .error rejection => .returned (.dbError (dbErrorMessage rejection))
  | .ok _ => .returned (.success userId)

def AuthService.logout (sha256 : String → String) (rawToken : Option Json)
    (find : Except Rejection (Option RefreshTokenRecord)) (revoke : Except Rejection Unit) :
    LogoutPc :=
  match logoutStart sha256 rawToken with
  | .find tokenHash =>
    match logoutFound tokenHash find with
    | .revoke _ userId => logoutRevoked userId revoke
    | ended => ended
  | ended => ended

structure ClearCookie where
  name : String
  httpOnly : Bool
  secure : Bool
  sameSite : String
  domain : Option String
  path : String
  deriving DecidableEq

def REFRESH_TOKEN_COOKIE : String := "refresh_token"

def XSRF_TOKEN_COOKIE : String := "XSRF-TOKEN"

def COOKIE_PATH : String := "/"

/-- The calls of `res.clearCookie`, in order. -/
def clearAuthCookies (nodeEnv : Option String) : List ClearCookie :=
  let isProduction := nodeEnv = some "production"
  let isDevelopment := nodeEnv = some "development"
  let cookieDomain := if isProduction then some ".tribehub.io" else none
  [⟨REFRESH_TOKEN_COOKIE,true,!isDevelopment,"strict",cookieDomain,COOKIE_PATH⟩,
    ⟨XSRF_TOKEN_COOKIE,false,!isDevelopment,"strict",cookieDomain,COOKIE_PATH⟩]

structure LogoutResult where
  threw : Bool
  cleared : List ClearCookie

/-- AuthController.logout, its cookie already read by cookie-parser. -/
def AuthController.logout (sha256 : String → String) (nodeEnv : Option String)
    (cookie : CookieValue) (find : Except Rejection (Option RefreshTokenRecord))
    (revoke : Except Rejection Unit) : LogoutResult :=
  match AuthService.logout sha256 cookie.value find revoke with
  | .threwTypeError => ⟨true,[]⟩
  | _ => ⟨false,clearAuthCookies nodeEnv⟩

def LogoutResult.Completes (result : LogoutResult) : Prop :=
  result.threw = false ∧ (∃ cleared ∈ result.cleared, cleared.name = REFRESH_TOKEN_COOKIE) ∧
    ∃ cleared ∈ result.cleared, cleared.name = XSRF_TOKEN_COOKIE

def CookieValue.IsString : CookieValue → Prop
  | .absent => True
  | .text _ => True
  | .parsed value _ => ∃ text, value = .string text

theorem logoutStart_truthy (sha256 : String → String) {value : Json} (truthy : value.truthy = true) :
    logoutStart sha256 (some value) =
      match tokenDigest sha256 value with
      | some tokenHash => .find tokenHash
      | none => .threwTypeError := by
  simp [logoutStart,truthy]

theorem logoutStart_falsy (sha256 : String → String) {value : Json} (falsy : value.truthy = false) :
    logoutStart sha256 (some value) = .returned .noToken := by
  simp [logoutStart,falsy]

theorem logoutStart_throws (sha256 : String → String) (cookie : CookieValue) :
    logoutStart sha256 cookie.value = .threwTypeError ↔ ¬cookie.IsString := by
  cases cookie with
  | absent => simp [CookieValue.value,logoutStart,CookieValue.IsString]
  | text value =>
    simp only [CookieValue.value,CookieValue.IsString,not_true_eq_false,iff_false]
    cases truthy : (Json.string value).truthy with
    | false => simp [logoutStart_falsy sha256 truthy]
    | true => simp [logoutStart_truthy sha256 truthy,tokenDigest]
  | parsed value truthy =>
    simp only [CookieValue.value,logoutStart_truthy sha256 truthy,CookieValue.IsString]
    cases value <;> simp [tokenDigest]

theorem AuthService.logout_throws (sha256 : String → String) (rawToken : Option Json)
    (find : Except Rejection (Option RefreshTokenRecord)) (revoke : Except Rejection Unit) :
    AuthService.logout sha256 rawToken find revoke = .threwTypeError ↔
      logoutStart sha256 rawToken = .threwTypeError := by
  unfold AuthService.logout
  cases logoutStart sha256 rawToken with
  | find tokenHash =>
    match find with
    | .error rejection => simp [logoutFound]
    | .ok none => simp [logoutFound]
    | .ok (some token) => cases revoke <;> simp [logoutFound,logoutRevoked]
  | _ => simp

/-- Whatever the queries do, the cookies are cleared exactly when the cookie is a string. -/
theorem logout_completes_iff (sha256 : String → String) (nodeEnv : Option String)
    (cookie : CookieValue) (find : Except Rejection (Option RefreshTokenRecord))
    (revoke : Except Rejection Unit) :
    (AuthController.logout sha256 nodeEnv cookie find revoke).Completes ↔ cookie.IsString := by
  have throws := (AuthService.logout_throws sha256 cookie.value find revoke).trans
    (logoutStart_throws sha256 cookie)
  unfold AuthController.logout
  split
  · rename_i threw
    simpa [LogoutResult.Completes] using throws.mp threw
  · rename_i returned
    have isString : cookie.IsString := by
      by_contra other
      exact returned (throws.mpr other)
    simpa [LogoutResult.Completes,clearAuthCookies] using isString

/-- `refresh_token=j:{"a":1}` ends the request before the cookies are cleared. -/
theorem object_cookie_keeps_cookies :
    ¬∃ sha256 nodeEnv find revoke, (AuthController.logout sha256 nodeEnv
      (.parsed (.object [("a",.number (.finite 1))]) rfl) find revoke).Completes := by
  intro some_completes
  obtain ⟨sha256,nodeEnv,find,revoke,completes⟩ := some_completes
  exact absurd completes.1 (by simp [AuthController.logout,AuthService.logout,logoutStart,
    CookieValue.value,Json.truthy,tokenDigest])

end TribeHub.Auth
