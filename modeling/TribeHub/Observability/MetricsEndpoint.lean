import TribeHub.Library.Text

/-! The metrics endpoint behind its two defences: the Basic credentials that the middleware
checks, and the secret path segment that the controller checks. -/
namespace TribeHub.Observability
open Text

inductive ResponseContent where
  | json (message : String)
  | text (metrics : String)
  | empty
  deriving DecidableEq

/-- What the middleware and the controller do, in order. -/
inductive MetricsEffect where
  | setHeader (name value : String)
  | respond (status : Nat) (content : ResponseContent)
  | next
  | getMetrics
  deriving DecidableEq

structure MetricsEnv where
  expectedUser : Option String
  expectedPass : Option String
  expectedSecret : Option String

/-- The text before the first colon and the text after it. -/
def splitCredentials (decoded : String) : Option (String × String) :=
  match cut ':' decoded.toList with
  | (user,some pass) => some (.ofList user,.ofList pass)
  | (_,none) => none

def basicCredentials (authHeader : Option String) : Option String :=
  match authHeader with
  | none => none
  | some text =>
    if "Basic ".toList.isPrefixOf text.toList then some (.ofList (text.toList.drop 6)) else none

def unauthorized : List MetricsEffect :=
  [.setHeader "WWW-Authenticate" "Basic realm=\"Metrics\"",.respond 401 (.json "Unauthorized")]

def unset (value : Option String) : Bool := value.getD "" = ""

/-- `decode` is the base64 decoding of Buffer, as UTF-8 text. -/
def MetricsAuthMiddleware.use (decode : String → String) (env : MetricsEnv)
    (authHeader : Option String) : List MetricsEffect :=
  if unset env.expectedUser || unset env.expectedPass then
    [.respond 503 (.json "Metrics endpoint is not configured on this server.")]
  else
    match basicCredentials authHeader with
    | none => unauthorized
    | some base64Credentials =>
      match splitCredentials (decode base64Credentials) with
      | none => unauthorized
      | some (user,pass) =>
        if some user ≠ env.expectedUser ∨ some pass ≠ env.expectedPass then unauthorized else [.next]

/-- `metrics` is the text that MetricsService.getMetrics resolves with. -/
def MetricsController.getMetrics (env : MetricsEnv) (providedSecret : Option String) (metrics : String) :
    List MetricsEffect :=
  if unset env.expectedSecret ∨ providedSecret ≠ env.expectedSecret then [.respond 404 .empty]
  else [.getMetrics,.setHeader "Content-Type" "text/plain; version=0.0.4; charset=utf-8",
    .respond 200 (.text metrics)]

/-- The controller runs once the middleware has called `next`. -/
def metricsEndpoint (decode : String → String) (env : MetricsEnv) (authHeader providedSecret : Option String)
    (metrics : String) : List MetricsEffect :=
  let effects := MetricsAuthMiddleware.use decode env authHeader
  if .next ∈ effects then effects ++ MetricsController.getMetrics env providedSecret metrics else effects

def Authorised (decode : String → String) (env : MetricsEnv) (authHeader : Option String) : Prop :=
  ∃ user pass, env.expectedUser = some user ∧ env.expectedPass = some pass ∧ user ≠ "" ∧ pass ≠ "" ∧
    ':' ∉ user.toList ∧ ∃ text, authHeader = some ("Basic " ++ text) ∧ decode text = user ++ ":" ++ pass

structure Admitted (decode : String → String) (env : MetricsEnv)
    (authHeader providedSecret : Option String) : Prop where
  credentials : Authorised decode env authHeader
  path : ∃ secret, env.expectedSecret = some secret ∧ secret ≠ "" ∧ providedSecret = some secret

/-- A refusal is one response, before which at most `next` was called and no metrics were read. -/
inductive Refusal : List MetricsEffect → Prop
  | notConfigured :
      Refusal [.respond 503 (.json "Metrics endpoint is not configured on this server.")]
  | unauthorized : Refusal [.setHeader "WWW-Authenticate" "Basic realm=\"Metrics\"",
      .respond 401 (.json "Unauthorized")]
  | notFound : Refusal [.next,.respond 404 .empty]

theorem splitCredentials_some {decoded user pass : String} :
    splitCredentials decoded = some (user,pass) ↔
      decoded = user ++ ":" ++ pass ∧ ':' ∉ user.toList := by
  unfold splitCredentials
  constructor
  · intro split
    cases found : cut ':' decoded.toList with
    | mk first second =>
      cases second with
      | none => simp [found] at split
      | some second =>
        obtain ⟨text,absent⟩ := cut_some found
        simp only [found,Option.some.injEq,Prod.mk.injEq] at split
        obtain ⟨rfl,rfl⟩ := split
        refine ⟨?_,by simpa using absent⟩
        rw [← String.toList_inj,text]
        simp
  · intro joined
    obtain ⟨rfl,absent⟩ := joined
    have text : (user ++ ":" ++ pass).toList = user.toList ++ ':' :: pass.toList := by simp
    rw [text,cut_append absent]
    simp

theorem basicCredentials_some {authHeader : Option String} {text : String} :
    basicCredentials authHeader = some text ↔ authHeader = some ("Basic " ++ text) := by
  have length : "Basic ".toList.length = 6 := by decide
  cases authHeader with
  | none => simp [basicCredentials]
  | some header =>
    have scheme : "Basic ".toList <+: header.toList ↔
        "Basic ".toList ++ header.toList.drop "Basic ".toList.length = header.toList :=
      List.prefix_iff_eq_append
    rw [length] at scheme
    rw [Option.some.injEq,← String.toList_inj,String.toList_append]
    constructor
    · intro found
      simp only [basicCredentials,List.isPrefixOf_iff_prefix,Option.ite_none_right_eq_some,
        Option.some.injEq] at found
      obtain ⟨begins,rest⟩ := found
      have rest : header.toList.drop 6 = text.toList := by
        simpa using congrArg String.toList rest
      rw [← rest]
      exact (scheme.mp begins).symm
    · intro split
      have begins : "Basic ".toList <+: header.toList := ⟨text.toList,split.symm⟩
      have rest : header.toList.drop 6 = text.toList := by
        rw [split,← length,List.drop_left]
      simp only [basicCredentials,List.isPrefixOf_iff_prefix,begins,if_true,rest,String.ofList_toList]

theorem eq_some_of_set {value : Option String} (set : ¬unset value = true) :
    ∃ text, value = some text ∧ text ≠ "" := by
  cases value with
  | none => simp [unset] at set
  | some text => exact ⟨text,rfl,by simpa [unset] using set⟩

theorem use_authorised {decode : String → String} {env : MetricsEnv} {authHeader : Option String}
    (authorised : Authorised decode env authHeader) :
    MetricsAuthMiddleware.use decode env authHeader = [.next] := by
  obtain ⟨user,pass,expectedUser,expectedPass,userSet,passSet,absent,text,header,decoded⟩ := authorised
  have credentials := basicCredentials_some.mpr header
  have split : splitCredentials (decode text) = some (user,pass) :=
    splitCredentials_some.mpr ⟨decoded,absent⟩
  simp [MetricsAuthMiddleware.use,unset,expectedUser,expectedPass,userSet,passSet,credentials,split]

theorem authorised_of_matching {decode : String → String} {env : MetricsEnv} {authHeader : Option String}
    {text user pass : String} (userSet : ¬unset env.expectedUser = true)
    (passSet : ¬unset env.expectedPass = true) (credentials : basicCredentials authHeader = some text)
    (split : splitCredentials (decode text) = some (user,pass))
    (sameUser : some user = env.expectedUser) (samePass : some pass = env.expectedPass) :
    Authorised decode env authHeader := by
  obtain ⟨decoded,absent⟩ := splitCredentials_some.mp split
  rw [← sameUser] at userSet
  rw [← samePass] at passSet
  refine ⟨user,pass,sameUser.symm,samePass.symm,?_,?_,absent,text,basicCredentials_some.mp credentials,decoded⟩
  · simpa [unset] using userSet
  · simpa [unset] using passSet

theorem use_refused {decode : String → String} {env : MetricsEnv} {authHeader : Option String}
    (refused : ¬Authorised decode env authHeader) :
    MetricsAuthMiddleware.use decode env authHeader =
        [.respond 503 (.json "Metrics endpoint is not configured on this server.")] ∨
      MetricsAuthMiddleware.use decode env authHeader = unauthorized := by
  unfold MetricsAuthMiddleware.use
  split
  case isTrue notConfigured => exact .inl rfl
  case isFalse configured =>
    right
    rw [Bool.or_eq_true,not_or] at configured
    obtain ⟨userSet,passSet⟩ := configured
    cases credentials : basicCredentials authHeader with
    | none => rfl
    | some text =>
      dsimp only
      cases split : splitCredentials (decode text) with
      | none => rfl
      | some pair =>
        obtain ⟨user,pass⟩ := pair
        dsimp only
        -- the last exit: credentials that match would make the header authorised
        rw [if_pos]
        by_contra matching
        rw [not_or,not_not,not_not] at matching
        exact refused (authorised_of_matching userSet passSet credentials split matching.1 matching.2)

theorem getMetrics_admitted {env : MetricsEnv} {providedSecret : Option String} (metrics : String)
    (path : ∃ secret, env.expectedSecret = some secret ∧ secret ≠ "" ∧ providedSecret = some secret) :
    MetricsController.getMetrics env providedSecret metrics =
      [.getMetrics,.setHeader "Content-Type" "text/plain; version=0.0.4; charset=utf-8",
        .respond 200 (.text metrics)] := by
  obtain ⟨secret,expected,secretSet,provided⟩ := path
  simp [MetricsController.getMetrics,unset,expected,secretSet,provided]

theorem getMetrics_refused {env : MetricsEnv} {providedSecret : Option String} (metrics : String)
    (refused : ¬∃ secret, env.expectedSecret = some secret ∧ secret ≠ "" ∧ providedSecret = some secret) :
    MetricsController.getMetrics env providedSecret metrics = [.respond 404 .empty] := by
  unfold MetricsController.getMetrics
  rw [if_pos]
  by_contra matching
  rw [not_or,not_not] at matching
  obtain ⟨secretSet,same⟩ := matching
  obtain ⟨secret,expected,nonempty⟩ := eq_some_of_set secretSet
  exact refused ⟨secret,expected,nonempty,same.trans expected⟩

theorem metricsEndpoint_authorised {decode : String → String} {env : MetricsEnv}
    {authHeader : Option String} (authorised : Authorised decode env authHeader)
    (providedSecret : Option String) (metrics : String) :
    metricsEndpoint decode env authHeader providedSecret metrics =
      .next :: MetricsController.getMetrics env providedSecret metrics := by
  simp [metricsEndpoint,use_authorised authorised]

theorem metricsEndpoint_admitted {decode : String → String} {env : MetricsEnv}
    {authHeader providedSecret : Option String} (admitted : Admitted decode env authHeader providedSecret)
    (metrics : String) :
    metricsEndpoint decode env authHeader providedSecret metrics =
      [.next,.getMetrics,.setHeader "Content-Type" "text/plain; version=0.0.4; charset=utf-8",
        .respond 200 (.text metrics)] := by
  rw [metricsEndpoint_authorised admitted.credentials,getMetrics_admitted metrics admitted.path]

theorem metricsEndpoint_refused {decode : String → String} {env : MetricsEnv}
    {authHeader providedSecret : Option String} (refused : ¬Admitted decode env authHeader providedSecret)
    (metrics : String) : Refusal (metricsEndpoint decode env authHeader providedSecret metrics) := by
  by_cases authorised : Authorised decode env authHeader
  · have path : ¬∃ secret, env.expectedSecret = some secret ∧ secret ≠ "" ∧
        providedSecret = some secret := fun path => refused ⟨authorised,path⟩
    rw [metricsEndpoint_authorised authorised,getMetrics_refused metrics path]
    exact .notFound
  · cases use_refused authorised with
    | inl notConfigured =>
      simp only [metricsEndpoint,notConfigured]
      exact .notConfigured
    | inr unauthorized =>
      simp only [metricsEndpoint,unauthorized]
      exact .unauthorized

theorem Refusal.sends_no_metrics {effects : List MetricsEffect} (refusal : Refusal effects)
    (status : Nat) (metrics : String) : .respond status (.text metrics) ∉ effects := by
  cases refusal with
  | notConfigured => simp
  | unauthorized => simp
  | notFound => simp

theorem metrics_sent_iff_admitted (decode : String → String) (env : MetricsEnv)
    (authHeader providedSecret : Option String) (metrics : String) :
    (.respond 200 (.text metrics) ∈ metricsEndpoint decode env authHeader providedSecret metrics ↔
      Admitted decode env authHeader providedSecret) ∧
    (¬Admitted decode env authHeader providedSecret →
      Refusal (metricsEndpoint decode env authHeader providedSecret metrics)) := by
  refine ⟨⟨fun sent => ?_,fun admitted => ?_⟩,fun refused => metricsEndpoint_refused refused metrics⟩
  · by_contra refused
    exact (metricsEndpoint_refused refused metrics).sends_no_metrics 200 metrics sent
  · rw [metricsEndpoint_admitted admitted metrics]
    simp

/-- A password may hold colons; the user ends at the first one. -/
example : MetricsAuthMiddleware.use id ⟨some "prom",some "a:b",some "x"⟩ (some "Basic prom:a:b") = [.next] := by
  decide

end TribeHub.Observability
