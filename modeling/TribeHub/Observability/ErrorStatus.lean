import TribeHub.Library.Js

/-! The status of a failed request in its three places: the `status_code` label of
HttpMetricsInterceptor, the line of LoggingInterceptor, and the response that
SentryExceptionFilter sends. -/
namespace TribeHub.Observability

/-- A property value. `other` is an object or function with what converting it to a string
gives, or nothing where the conversion throws. -/
inductive JsValue where
  | undefined
  | null
  | boolean (value : Bool)
  | number (value : Js.Number)
  | string (value : String)
  | symbol (description : String)
  | other (printed : Option String)

/-- `String(value)`; `render` prints numbers. -/
def JsValue.print (render : Js.Number → String) : JsValue → Option String
  | .undefined => some "undefined"
  | .null => some "null"
  | .boolean value => some (if value then "true" else "false")
  | .number value => some (render value)
  | .string value => some value
  | .symbol description => some ("Symbol(" ++ description ++ ")")
  | .other printed => printed

/-- `${value}`, which throws on symbols. -/
def JsValue.interpolate (render : Js.Number → String) (value : JsValue) : Option String :=
  match value with
  | .symbol _ => none
  | value => value.print render

def JsValue.numeric : JsValue → Option Js.Number
  | .number value => some value
  | _ => none

/-- An error thrown while the filter answers. Express passes it on to Nest's exceptions layer,
which calls the filter again with it; `answered` is the status that is sent in the end. -/
structure Failure where
  answered : Js.Number

/-- A thrown object that is no HttpException. A property is `none` where `in` is false.
`logText` is what the filter logs of it: the stack of an Error, or else
`String(message ?? exception)`. `unserialisable` is what JSON.stringify throws on it. -/
structure ThrownObject where
  instanceofObject : Bool
  callable : Bool
  logText : Except Failure String
  status : Option JsValue
  statusCode : Option JsValue
  unserialisable : Option Failure

/-- What a handler throws; `getStatus` of an HttpException returns its `status`, and
`unserialisable` is what JSON.stringify throws on its `getResponse`. -/
inductive Exception where
  | httpException (status : Js.Number) (unserialisable : Option Failure)
  | object (thrown : ThrownObject)
  | primitive

inductive Emission where
  | next (statusCode : Js.Number)
  | error (exception : Exception)

/-- The status expression that both interceptors use on an error. -/
def errorStatus : Exception → JsValue
  | .httpException status _ => .number status
  | .object thrown =>
    if thrown.instanceofObject then thrown.status.getD (.number (.finite 500))
    else .number (.finite 500)
  | .primitive => .number (.finite 500)

def emissionStatus : Emission → JsValue
  | .next statusCode => .number statusCode
  | .error exception => errorStatus exception

structure RequestLabels where
  method : String
  route : String
  statusCode : String
  deriving DecidableEq

/-- HttpMetricsInterceptor.intercept: the series that the request is counted in. -/
def metricsLabels (render : Js.Number → String) (method route : String) (emission : Emission) :
    Option RequestLabels :=
  ((emissionStatus emission).print render).map (fun statusCode => ⟨method,route,statusCode⟩)

structure LogLine where
  isError : Bool
  method : String
  url : String
  statusCode : String
  duration : Nat
  requestId : String

/-- LoggingInterceptor.intercept: the parts of the line that it writes. -/
def logLine (render : Js.Number → String) (method url : String) (requestId : Option String)
    (duration : Nat) (emission : Emission) : Option LogLine :=
  ((emissionStatus emission).interpolate render).map (fun statusCode =>
    ⟨match emission with
      | .next _ => false
      | .error _ => true,method,url,statusCode,duration,requestId.getD "unknown"⟩)

inductive ResponseBody where
  | exceptionResponse
  | thrownObject
  | internalServerError
  deriving DecidableEq

structure Filtered where
  status : Js.Number
  body : ResponseBody
  captured : Bool

def atLeast500 : Js.Number → Bool
  | .finite q => decide (500 ≤ q)
  | .infinity => true
  | _ => false

/-- The codes that `response.status` takes; it throws on other numbers. -/
def isStatusCode : Js.Number → Bool
  | .finite q => q.den == 1 && decide (100 ≤ q) && decide (q ≤ 999)
  | _ => false

/-- The TypeError and RangeError of `response.status` have no `statusCode`. -/
def invalidStatusCode : Failure := ⟨.finite 500⟩

/-- `response.status(status).json(body)` -/
def respond (status : Js.Number) (body : ResponseBody) (unserialisable : Option Failure)
    (captured : Bool) : Except Failure Filtered :=
  if isStatusCode status then
    match unserialisable with
    | none => .ok ⟨status,body,captured⟩
    | some failure => .error failure
  else .error invalidStatusCode

/-- The numeric `statusCode` of an object; `typeof` a function is not `'object'`. -/
def ThrownObject.numericStatusCode (thrown : ThrownObject) : Option Js.Number :=
  if thrown.callable then none else thrown.statusCode.bind JsValue.numeric

/-- SentryExceptionFilter.catch; it logs before it answers. -/
def sentryFilter : Exception → Except Failure Filtered
  | .httpException status unserialisable =>
    respond status .exceptionResponse unserialisable (atLeast500 status)
  | .object thrown => do
    let _ ← thrown.logText
    match thrown.numericStatusCode with
    | some statusCode => respond statusCode .thrownObject thrown.unserialisable true
    | none => respond (.finite 500) .internalServerError none true
  | .primitive => respond (.finite 500) .internalServerError none true

def sent : Except Failure Filtered → Js.Number
  | .ok filtered => filtered.status
  | .error failure => failure.answered

def sentStatus (exception : Exception) : Js.Number := sent (sentryFilter exception)

def Accounted (render : Js.Number → String) (exception : Exception) : Prop :=
  (∀ method route, metricsLabels render method route (.error exception) =
    some ⟨method,route,render (sentStatus exception)⟩) ∧
  ∀ method url requestId duration, logLine render method url requestId duration (.error exception) =
    some ⟨true,method,url,render (sentStatus exception),duration,requestId.getD "unknown"⟩

def JsValue.PrintsAs (render : Js.Number → String) (value : JsValue) (number : Js.Number) : Prop :=
  value.print render = some (render number) ∧ value.interpolate render = some (render number)

/-- The `status` that the interceptors see on a thrown object prints as `number`, or they see
none and `number` prints as 500. -/
def ThrownObject.Shows (render : Js.Number → String) (thrown : ThrownObject) (number : Js.Number) : Prop :=
  match if thrown.instanceofObject then thrown.status else none with
  | some status => status.PrintsAs render number
  | none => render number = render (.finite 500)

/-- An HttpException is consistent if its status is a status code and its body serialises; if
not, its status has to print as what the error is answered with, and so has the status that
another object shows. An object that is logged and has a numeric `statusCode` has to show
that, and without one it has to show 500. -/
def Consistent (render : Js.Number → String) : Exception → Prop
  | .httpException status unserialisable =>
    match isStatusCode status,unserialisable with
    | true,none => True
    | true,some failure => render status = render failure.answered
    | false,_ => render status = render (.finite 500)
  | .object thrown =>
    match thrown.logText,thrown.numericStatusCode with
    | .error failure,_ => thrown.Shows render failure.answered
    | .ok _,none => thrown.Shows render (.finite 500)
    | .ok _,some statusCode =>
      match isStatusCode statusCode,thrown.unserialisable with
      | true,none => thrown.Shows render statusCode
      | true,some failure => thrown.Shows render failure.answered
      | false,_ => thrown.Shows render (.finite 500)
  | .primitive => True

theorem isStatusCode_500 : isStatusCode (.finite 500) = true := by decide

/-- An error without `status` and `statusCode`, as `response.status` throws it, is answered with
500 when the filter is called again. -/
theorem failure_answered (stack : String) :
    sentStatus (.object ⟨true,false,.ok stack,none,none,none⟩) = invalidStatusCode.answered := rfl

theorem number_printsAs (render : Js.Number → String) (value number : Js.Number) :
    (JsValue.number value).PrintsAs render number ↔ render value = render number := by
  simp [JsValue.PrintsAs,JsValue.print,JsValue.interpolate]

theorem shows_iff (render : Js.Number → String) (thrown : ThrownObject) (number : Js.Number) :
    thrown.Shows render number ↔ (errorStatus (.object thrown)).PrintsAs render number := by
  obtain ⟨instanceofObject,callable,logText,status,statusCode,unserialisable⟩ := thrown
  cases instanceofObject with
  | false =>
    rw [errorStatus,if_neg Bool.false_ne_true,number_printsAs]
    exact eq_comm
  | true =>
    cases status with
    | none =>
      simp only [errorStatus,if_true,Option.getD_none,number_printsAs]
      exact eq_comm
    | some status => simp [ThrownObject.Shows,errorStatus]

theorem accounted_iff_prints (render : Js.Number → String) (exception : Exception) :
    Accounted render exception ↔ (errorStatus exception).PrintsAs render (sentStatus exception) := by
  unfold Accounted JsValue.PrintsAs metricsLabels logLine
  simp only [emissionStatus]
  constructor
  · intro accounted
    obtain ⟨counted,logged⟩ := accounted
    obtain ⟨label,printed,counts⟩ := Option.map_eq_some_iff.mp (counted "" "")
    obtain ⟨text,interpolated,line⟩ := Option.map_eq_some_iff.mp (logged "" "" none 0)
    have label_same : label = render (sentStatus exception) := congrArg RequestLabels.statusCode counts
    have text_same : text = render (sentStatus exception) := congrArg LogLine.statusCode line
    exact ⟨label_same ▸ printed,text_same ▸ interpolated⟩
  · intro prints
    obtain ⟨printed,interpolated⟩ := prints
    refine ⟨fun method route => ?_,fun method url requestId duration => ?_⟩
    · rw [printed]
      rfl
    · rw [interpolated]
      rfl

theorem sent_respond {status : Js.Number} (valid : isStatusCode status = true) (body : ResponseBody)
    (captured : Bool) : sent (respond status body none captured) = status := by
  simp [respond,valid,sent]

theorem sent_unserialisable {status : Js.Number} (valid : isStatusCode status = true)
    (body : ResponseBody) (failure : Failure) (captured : Bool) :
    sent (respond status body (some failure) captured) = failure.answered := by
  simp [respond,valid,sent]

theorem sent_invalid {status : Js.Number} (invalid : isStatusCode status = false)
    (body : ResponseBody) (unserialisable : Option Failure) (captured : Bool) :
    sent (respond status body unserialisable captured) = .finite 500 := by
  simp [respond,invalid,sent,invalidStatusCode]

theorem httpException_accounted_iff (render : Js.Number → String) (status : Js.Number)
    (unserialisable : Option Failure) :
    Accounted render (.httpException status unserialisable) ↔
      Consistent render (.httpException status unserialisable) := by
  rw [accounted_iff_prints,errorStatus,number_printsAs,sentStatus,sentryFilter]
  cases valid : isStatusCode status with
  | false =>
    rw [sent_invalid valid]
    simp [Consistent,valid]
  | true =>
    cases unserialisable with
    | none =>
      rw [sent_respond valid]
      simp [Consistent,valid]
    | some failure =>
      rw [sent_unserialisable valid]
      simp [Consistent,valid]

theorem object_accounted_iff (render : Js.Number → String) (thrown : ThrownObject) :
    Accounted render (.object thrown) ↔ Consistent render (.object thrown) := by
  rw [accounted_iff_prints,← shows_iff,sentStatus]
  cases logged : thrown.logText with
  | error failure => simp [sentryFilter,Consistent,logged,bind,Except.bind,sent]
  | ok text =>
    cases found : thrown.numericStatusCode with
    | none =>
      have answers : sentryFilter (.object thrown) = respond (.finite 500) .internalServerError none true := by
        simp [sentryFilter,logged,found,bind,Except.bind]
      rw [answers,sent_respond isStatusCode_500]
      simp [Consistent,logged,found]
    | some statusCode =>
      have answers : sentryFilter (.object thrown) =
          respond statusCode .thrownObject thrown.unserialisable true := by
        simp [sentryFilter,logged,found,bind,Except.bind]
      rw [answers]
      cases valid : isStatusCode statusCode with
      | false =>
        rw [sent_invalid valid]
        simp [Consistent,logged,found,valid]
      | true =>
        cases serialises : thrown.unserialisable with
        | none =>
          rw [sent_respond valid]
          simp [Consistent,logged,found,valid,serialises]
        | some failure =>
          rw [sent_unserialisable valid]
          simp [Consistent,logged,found,valid,serialises]

theorem accounted_iff (render : Js.Number → String) (exception : Exception) :
    Accounted render exception ↔ Consistent render exception := by
  cases exception with
  | httpException status unserialisable => exact httpException_accounted_iff render status unserialisable
  | object thrown => exact object_accounted_iff render thrown
  | primitive =>
    rw [accounted_iff_prints]
    simp only [errorStatus,number_printsAs,sentStatus,sentryFilter,sent_respond isStatusCode_500,Consistent]

def renderInteger : Js.Number → String
  | .finite q => toString q.num
  | .infinity => "Infinity"
  | .negInfinity => "-Infinity"
  | .nan => "NaN"

/-- An Error that carries the status 404 of another service is sent as a 500. -/
theorem upstream_not_accounted : ¬∀ exception, Accounted renderInteger exception := by
  intro promised
  obtain ⟨counted,_⟩ :=
    promised (.object ⟨true,false,.ok "Error: upstream",some (.number (.finite 404)),none,none⟩)
  have label := congrArg RequestLabels.statusCode (Option.some.inj (counted "GET" "/feed"))
  exact absurd label (by decide)

end TribeHub.Observability
