import SpotQueue.Json

namespace SpotQueue.RestaurantClient

def HTTP_STATUS.BAD_REQUEST : Nat := 400

def HTTP_STATUS.UNAUTHORIZED : Nat := 401

def HTTP_STATUS.FORBIDDEN : Nat := 403

def HTTP_STATUS.NOT_FOUND : Nat := 404

def HTTP_STATUS.CONFLICT : Nat := 409

def HTTP_STATUS.INTERNAL_SERVER_ERROR : Nat := 500

def HTTP_STATUS.SERVICE_UNAVAILABLE : Nat := 503

def TABLE_ASSIGNMENT_FAILED_UPSTREAM : String := "Failed to assign tables upstream"

def TABLE_ASSIGNMENT_ERROR_PREFIX : String := "Restaurant table assignment failed"

def TABLE_RELEASE_FAILED_UPSTREAM : String := "Failed to release tables upstream"

def TABLE_RELEASE_ERROR_PREFIX : String := "Restaurant table release failed"

/-- The two classes the client and its breaker tell apart, and all others by their code. -/
inductive DomainError
  | restaurantNotFound (restaurantId : String)
  | upstreamServiceUnavailable (message : String) (upstreamStatusCode : Option Nat)
  | other (code : String)

def DomainError.code : DomainError → String
  | .restaurantNotFound _ => "RESTAURANT_NOT_FOUND"
  | .upstreamServiceUnavailable _ _ => "UPSTREAM_SERVICE_UNAVAILABLE"
  | .other code => code

def DomainError.upstreamStatusCode : DomainError → Option Nat
  | .upstreamServiceUnavailable _ upstreamStatusCode => upstreamStatusCode
  | _ => none

structure HttpResponse where
  status : Nat
  data : Json

/-- Whatever can be thrown between the request and the caller. `other` is an error of
the language's own. -/
inductive Thrown
  | domain (error : DomainError)
  | axios (response : Option HttpResponse) (message : String)
  | other

/-- `err.code`. An axios error has a code that is none of a domain error's, and the
language's own errors have none. -/
def Thrown.code : Thrown → Option String
  | .domain error => some error.code
  | .axios _ _ | .other => none

/-- `err.details?.upstreamStatusCode` -/
def Thrown.upstreamStatusCode : Thrown → Option Nat
  | .domain error => error.upstreamStatusCode
  | .axios _ _ | .other => none

def Thrown.isOneOf (err : Thrown) (codes : List String) : Bool := err.code.any (· ∈ codes)

/-- The mapper takes whatever was thrown; an error without a code comes to its default. -/
def mapDomainErrorToHttpStatus (err : Thrown) : Nat :=
  if err.isOneOf ["TABLES_AVAILABLE", "RESTAURANT_NOT_ACCEPTING_QUEUE", "ACTIVE_QUEUE_ENTRY_EXISTS",
      "QUEUE_ENTRY_NOT_WAITING"] then HTTP_STATUS.CONFLICT
  else if err.isOneOf ["QUEUE_ENTRY_NOT_FOUND", "RESTAURANT_NOT_FOUND"] then HTTP_STATUS.NOT_FOUND
  else if err.isOneOf ["UNAUTHORIZED"] then HTTP_STATUS.UNAUTHORIZED
  else if err.isOneOf ["FORBIDDEN", "RESTAURANT_BLOCKED", "SUBSCRIPTION_REQUIRED"] then
    HTTP_STATUS.FORBIDDEN
  else if err.isOneOf ["INVALID_PARTY_SIZE", "INVALID_REGISTRATION_TYPE",
      "INSUFFICIENT_TABLE_CAPACITY", "CANNOT_RING_WALK_IN_CUSTOMER"] then HTTP_STATUS.BAD_REQUEST
  else if err.isOneOf ["UPSTREAM_SERVICE_UNAVAILABLE"] then
    (err.upstreamStatusCode.filter (· ≠ 0)).getD HTTP_STATUS.SERVICE_UNAVAILABLE
  else HTTP_STATUS.BAD_REQUEST

/-- What the request of one call comes to. -/
inductive UpstreamOutcome
  | responded (body : Json)
  | httpError (response : Option HttpResponse) (message : String)
  | crashed

def clientError (status : Nat) : Bool :=
  HTTP_STATUS.BAD_REQUEST ≤ status && status < HTTP_STATUS.INTERNAL_SERVER_ERROR

def checkIsFailure : Thrown → Bool
  | .domain (.restaurantNotFound _) => false
  | .domain (.upstreamServiceUnavailable _ upstreamStatusCode) =>
    match upstreamStatusCode with
    | some status => !(status ≠ 0 && clientError status)
    | none => true
  | .domain (.other _) => false
  | .axios (some response) _ =>
    !(response.status = HTTP_STATUS.NOT_FOUND || response.status ≠ 0 && clientError response.status)
  | .axios none _ | .other => true

variable (printNumber : Rat → String)

/-- `value || fallback` as an Error takes it: as a text, which can throw. -/
def messageOr (value : Option Json) (fallback : String) : Option String :=
  match value.filter (·.truthy) with
  | some value => value.text printNumber
  | none => some fallback

def upstreamError (message : Option String) (upstreamStatusCode : Option Nat) : Thrown :=
  match message with
  | some message => .domain (.upstreamServiceUnavailable message upstreamStatusCode)
  | none => .other

/-- The try block, once the request has settled. -/
def unwrap (needsData : Bool) (failedMessage : String) : UpstreamOutcome → Except Thrown (Option Json)
  | .responded body =>
    if !Json.isTrue (body.property "success") ||
        needsData && !(body.property "data").any (·.truthy) then
      .error (upstreamError (messageOr printNumber (body.property "message") failedMessage) none)
    else .ok (body.property "data")
  | .httpError response message => .error (.axios response message)
  | .crashed => .error .other

/-- The catch block. -/
def translate (restaurantId errorPrefix : String) : Thrown → Thrown
  | .domain error => .domain error
  | .axios response message =>
    if response.map (·.status) = some HTTP_STATUS.NOT_FOUND then
      .domain (.restaurantNotFound restaurantId)
    else
      let upstreamMessage := messageOr printNumber (response.bind (·.data.property "message"))
        (errorPrefix ++ ": " ++ message)
      let statusCode := ((response.map (·.status)).filter
        (fun status => status ≠ 0 && clientError status)).getD HTTP_STATUS.SERVICE_UNAVAILABLE
      upstreamError upstreamMessage (some statusCode)
  | .other => .domain (.upstreamServiceUnavailable
      "Unexpected error communicating with restaurant service" none)

/-- One operation, as the breaker is handed it. The four methods repeat this
translation word for word. -/
def exchange (needsData : Bool) (failedMessage errorPrefix restaurantId : String)
    (outcome : UpstreamOutcome) : Except Thrown (Option Json) :=
  (unwrap printNumber needsData failedMessage outcome).mapError (translate printNumber restaurantId errorPrefix)

inductive BreakerError
  | circuitOpen
  | timedOut (timeoutMs : Option Nat)
  | rethrown (error : Thrown)

def executeWithBreaker {α : Type} (timeoutMs : Nat) : Except BreakerError α → Except Thrown α
  | .ok a => .ok a
  | .error .circuitOpen => .error (.domain (.upstreamServiceUnavailable
      "Restaurant service is temporarily unavailable (circuit open)"
      (some HTTP_STATUS.SERVICE_UNAVAILABLE)))
  | .error (.timedOut ms) => .error (.domain (.upstreamServiceUnavailable
      ("Restaurant service timed out after " ++ toString (ms.getD timeoutMs) ++ "ms")
      (some HTTP_STATUS.SERVICE_UNAVAILABLE)))
  | .error (.rethrown error) => .error error

def getRestaurantStatus (restaurantId : String) (outcome : UpstreamOutcome) :
    Except Thrown (Option Json) :=
  exchange printNumber true "Failed to retrieve restaurant validation status"
    "Restaurant service validation failed" restaurantId outcome

def checkAvailability (restaurantId : String) (outcome : UpstreamOutcome) :
    Except Thrown (Option Json) :=
  exchange printNumber true "Failed to retrieve table availability status" "Restaurant table check failed"
    restaurantId outcome

def assignTables (restaurantId : String) (outcome : UpstreamOutcome) : Except Thrown Unit :=
  (exchange printNumber false TABLE_ASSIGNMENT_FAILED_UPSTREAM TABLE_ASSIGNMENT_ERROR_PREFIX restaurantId
    outcome).map fun _ => ()

def releaseTables (restaurantId : String) (outcome : UpstreamOutcome) : Except Thrown Unit :=
  (exchange printNumber false TABLE_RELEASE_FAILED_UPSTREAM TABLE_RELEASE_ERROR_PREFIX restaurantId
    outcome).map fun _ => ()

end SpotQueue.RestaurantClient
