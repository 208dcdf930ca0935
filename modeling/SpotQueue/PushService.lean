import SpotQueue.Entity
import SpotQueue.Awaits.AsyncProgram
import Mathlib.Logic.Function.Basic

namespace SpotQueue.PushService

open SpotQueue.Entity SpotQueue.Awaits.AsyncProgram

def INVALID_TOKEN_ERROR_CODES : List String :=
  ["messaging/invalid-registration-token",
    "messaging/registration-token-not-registered",
    "messaging/invalid-argument"]

def PERMANENT_CLIENT_ERROR_CODES : List String :=
  ["messaging/authentication-error",
    "messaging/mismatched-credential",
    "messaging/forbidden",
    "messaging/invalid-payload",
    "messaging/payload-size-limit-exceeded",
    "messaging/invalid-data-payload-key",
    "messaging/third-party-auth-error",
    "messaging/invalid-recipient",
    "messaging/invalid-options"]

def MISSING_TOKEN : String := "Missing or invalid token format"

def MAX_RETRIES_EXCEEDED : String := "Max bounded retries exceeded"

def MOCK_MESSAGE_ID : String := "mock-fcm-id"

structure PushNotificationPayload where
  fid : String
  title : String
  body : String
  data : String → Option String
  deepLink : Option String

structure PushNotificationResult where
  success : Bool
  messageId : Option String
  error : Option String
  isTokenInvalid : Option Bool
deriving DecidableEq

/-- The part of an FCM message that depends on the payload. -/
structure Message where
  fid : String
  title : String
  body : String
  data : String → Option String
  link : Option String

/-- A thrown value: the two properties the handler reads, and `String(error)`. -/
structure ThrownError where
  code : Option String
  message : Option String
  text : String
deriving DecidableEq

def ThrownError.errorCode (err : ThrownError) : String := (truthy err.code).getD ""

def ThrownError.errorMessage (err : ThrownError) : String := (truthy err.message).getD err.text

inductive PushCall
  | send (message : Message)
  | sleep (ms : Nat)

@[reducible] def PushAnswer : PushCall → Type
  | .send _ => String
  | .sleep _ => Unit

abbrev Push (α : Type) := Program PushCall PushAnswer ThrownError α

/-- `config.firebase`; without a client nothing is sent. -/
structure FirebaseConfig where
  configured : Bool
  maxRetries : Nat
  retryDelayMs : Nat

def toMessage (payload : PushNotificationPayload) : Message where
  fid := payload.fid
  title := payload.title
  body := payload.body
  data := match truthy payload.deepLink with
    | some deepLink => Function.update payload.data "deepLink" (some deepLink)
    | none => payload.data
  link := truthy payload.deepLink

def sent (messageId : String) : PushNotificationResult := ⟨true, some messageId, none, none⟩

def failed (error : String) (isTokenInvalid : Bool) : PushNotificationResult :=
  ⟨false, none, some error, some isTokenInvalid⟩

/-- A call in a try block, its rejection handed to the code that follows. -/
def tried (c : PushCall) : Push (Except ThrownError (PushAnswer c)) :=
  tryCatch (Except.ok <$> call c) fun err => pure (.error err)

/-- The while loop, at most `fuel` more rounds of it. -/
def sendLoop (config : FirebaseConfig) (message : Message) : Nat → Nat → Push PushNotificationResult
  | 0, _ => return failed MAX_RETRIES_EXCEEDED false
  | fuel + 1, attempt => do
    if attempt ≤ config.maxRetries then
      let attempt := attempt + 1
      match ← tried (.send message) with
      | .ok messageId => return sent messageId
      | .error err =>
        if err.errorCode ∈ INVALID_TOKEN_ERROR_CODES then
          return failed err.errorMessage true
        else if err.errorCode ∈ PERMANENT_CLIENT_ERROR_CODES then
          return failed err.errorMessage false
        else if attempt ≤ config.maxRetries then
          call (PushCall.sleep (config.retryDelayMs * attempt))
          sendLoop config message fuel attempt
        else
          return failed err.errorMessage false
    else
      return failed MAX_RETRIES_EXCEEDED false

def send (config : FirebaseConfig) (payload : PushNotificationPayload) : Push PushNotificationResult :=
  if !config.configured then
    return sent MOCK_MESSAGE_ID
  else if payload.fid = "" then
    return failed MISSING_TOKEN true
  else sendLoop config (toMessage payload) (config.maxRetries + 2) 0

/-- The processor of the notification worker. -/
def processJob (config : FirebaseConfig) (payload : PushNotificationPayload) :
    Push PushNotificationResult := do
  let result ← send config payload
  if !result.success && !(result.isTokenInvalid.getD false) then
    throw ⟨none, some ((truthy result.error).getD "Push notification dispatch failed"), ""⟩
  return result

structure JobOptions where
  attempts : Nat

def PUSH_NOTIFICATION_JOB_OPTIONS : JobOptions := ⟨3⟩

/-- BullMQ runs the processor until it does not throw or the attempts are used
up; a job that has failed for good has no result. -/
def runJob (config : FirebaseConfig) (payload : PushNotificationPayload) :
    Nat → Push (Option PushNotificationResult)
  | 0 => return none
  | attempts + 1 =>
    tryCatch (some <$> processJob config payload) fun _ => runJob config payload attempts

/-- What messaging.send settles on, each time it is called. -/
abbrev Outcomes := Nat → Except ThrownError String

/-- The state is the number of sends so far. -/
def reply (outcomes : Outcomes) : (c : PushCall) → Nat → Except ThrownError (PushAnswer c) × Nat
  | .send _, n => (outcomes n, n + 1)
  | .sleep _, n => (.ok (), n)

/-- The outcomes of the sends among the calls, in order. -/
def sends : List (Event PushCall PushAnswer ThrownError Nat) → List (Except ThrownError String)
  | [] => []
  | ⟨_, .send _, answer, _⟩ :: calls => answer :: sends calls
  | ⟨_, .sleep _, _, _⟩ :: calls => sends calls

/-- The sends of a whole job. -/
def jobSends (config : FirebaseConfig) (payload : PushNotificationPayload) (options : JobOptions)
    (outcomes : Outcomes) : List (Except ThrownError String) :=
  sends (run (reply outcomes) (runJob config payload options.attempts) 0).1

end SpotQueue.PushService
