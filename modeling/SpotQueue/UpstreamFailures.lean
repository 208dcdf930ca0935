import SpotQueue.RestaurantClient

namespace SpotQueue.UpstreamFailures

open SpotQueue.RestaurantClient

variable (printNumber : Rat → String) (restaurantId : String) (outcome : UpstreamOutcome)

inductive Operation
  | getRestaurantStatus
  | checkAvailability
  | assignTables
  | releaseTables

/-- How an operation settles inside the breaker, its value left out. -/
def settled : Operation → Except Thrown Unit
  | .getRestaurantStatus => (getRestaurantStatus printNumber restaurantId outcome).map fun _ => ()
  | .checkAvailability => (checkAvailability printNumber restaurantId outcome).map fun _ => ()
  | .assignTables => assignTables printNumber restaurantId outcome
  | .releaseTables => releaseTables printNumber restaurantId outcome

/-- The breaker lets the operation run and rethrows what it rejects with. -/
def call (timeoutMs : Nat) (operation : Operation) : Except Thrown Unit :=
  executeWithBreaker timeoutMs ((settled printNumber restaurantId outcome operation).mapError .rethrown)

/-- An error answer, not a 404, whose body has a message that no text can be made of. -/
def Unreadable : UpstreamOutcome → Prop
  | .httpError (some response) _ => response.status ≠ HTTP_STATUS.NOT_FOUND ∧
      ∃ value ∈ response.data.property "message", value.unprintable = true
  | _ => False

/-- What the translation can leave of an upstream outcome. -/
inductive Translated : Thrown → Prop
  | notFound : Translated (.domain (.restaurantNotFound restaurantId))
  | unspecified (message : String) :
      Translated (.domain (.upstreamServiceUnavailable message none))
  | unavailable (message : String) :
      Translated (.domain (.upstreamServiceUnavailable message (some HTTP_STATUS.SERVICE_UNAVAILABLE)))
  | client (message : String) (status : Nat) (hstatus : clientError status = true) :
      Translated (.domain (.upstreamServiceUnavailable message (some status)))
  | unreadable (houtcome : Unreadable outcome) : Translated .other

theorem messageOr_none {value : Option Json} {fallback : String} :
    messageOr printNumber value fallback = none ↔
      ∃ unreadable ∈ value, unreadable.unprintable = true := by
  cases value with
  | none => simp [messageOr]
  | some value =>
    by_cases htruthy : value.truthy = true
    · simp [messageOr, Option.filter, htruthy, Json.text_none]
    · have hprintable : ¬ value.unprintable = true := fun h => htruthy (Json.truthy_of_unprintable h)
      simp [messageOr, Option.filter, htruthy, hprintable]

theorem unwrap_error {needsData : Bool} {failedMessage : String} {thrown : Thrown}
    (h : unwrap printNumber needsData failedMessage outcome = .error thrown) :
    (∃ message, thrown = .domain (.upstreamServiceUnavailable message none)) ∨ thrown = .other ∨
      ∃ response message, outcome = .httpError response message ∧ thrown = .axios response message := by
  cases outcome with
  | responded body =>
    simp only [unwrap] at h
    split at h
    case isTrue =>
      injection h with h
      subst h
      unfold upstreamError
      split
      case h_1 message _ => exact .inl ⟨message, rfl⟩
      case h_2 => exact .inr (.inl rfl)
    case isFalse => exact absurd h (by simp)
  | httpError response message =>
    injection h with h
    exact .inr (.inr ⟨response, message, rfl, h.symm⟩)
  | crashed =>
    injection h with h
    exact .inr (.inl h.symm)

theorem translate_axios {errorPrefix message : String} {response : Option HttpResponse}
    (houtcome : outcome = .httpError response message) :
    Translated restaurantId outcome
      (translate printNumber restaurantId errorPrefix (.axios response message)) := by
  simp only [RestaurantClient.translate]
  split
  case isTrue => exact .notFound
  case isFalse hstatus =>
    cases hmessage : messageOr printNumber (response.bind (·.data.property "message"))
        (errorPrefix ++ ": " ++ message) with
    | none =>
      obtain ⟨value, hvalue, htext⟩ := (messageOr_none printNumber).mp hmessage
      obtain ⟨answer, rfl, hdata⟩ := Option.bind_eq_some_iff.mp hvalue
      subst houtcome
      exact .unreadable ⟨fun h => hstatus (congrArg some h), value, hdata, htext⟩
    | some text =>
      cases hstatus : (response.map (·.status)).filter
          (fun status => status ≠ 0 && clientError status) with
      | none => exact .unavailable text
      | some status =>
        have hclient := (Option.filter_eq_some_iff.mp hstatus).2
        rw [Bool.and_eq_true] at hclient
        exact .client text status hclient.2

theorem mapError_error {ε δ α : Type} (e : ε) (f : ε → δ) :
    (Except.error e : Except ε α).mapError f = .error (f e) :=
  rfl

/-- The error that the conversion throws leaves the catch block untranslated. -/
theorem exchange_unreadable (needsData : Bool) (failedMessage errorPrefix : String)
    (h : Unreadable outcome) :
    exchange printNumber needsData failedMessage errorPrefix restaurantId outcome = .error .other := by
  match outcome, h with
  | .httpError (some response) message, ⟨hstatus, value, hvalue, htext⟩ =>
    have hmessage : messageOr printNumber (response.data.property "message")
        (errorPrefix ++ ": " ++ message) = none :=
      (messageOr_none printNumber).mpr ⟨value, hvalue, htext⟩
    simp [exchange, unwrap, mapError_error, RestaurantClient.translate, hstatus, hmessage, upstreamError]

theorem exchange_error {needsData : Bool} {failedMessage errorPrefix : String} {thrown : Thrown}
    (h : exchange printNumber needsData failedMessage errorPrefix restaurantId outcome = .error thrown) :
    Translated restaurantId outcome thrown := by
  rw [exchange] at h
  cases hunwrap : unwrap printNumber needsData failedMessage outcome with
  | ok data =>
    rw [hunwrap] at h
    cases h
  | error raised =>
    rw [hunwrap] at h
    injection h with h
    subst h
    obtain ⟨message, rfl⟩ | rfl | ⟨response, message, houtcome, rfl⟩ :=
      unwrap_error printNumber outcome hunwrap
    · exact .unspecified message
    · exact .unspecified _
    · exact translate_axios printNumber restaurantId outcome houtcome

theorem map_error {ε α β : Type} {f : α → β} {result : Except ε α} {e : ε}
    (h : result.map f = .error e) : result = .error e := by
  cases result with
  | ok a => cases h
  | error raised =>
    injection h with h
    rw [h]

theorem settled_error {operation : Operation} {thrown : Thrown}
    (h : settled printNumber restaurantId outcome operation = .error thrown) :
    Translated restaurantId outcome thrown := by
  cases operation <;> exact exchange_error printNumber restaurantId outcome (map_error h)

theorem settled_unreadable (operation : Operation) (h : Unreadable outcome) :
    settled printNumber restaurantId outcome operation = .error .other := by
  have hexchange := fun needsData failedMessage errorPrefix =>
    exchange_unreadable printNumber restaurantId outcome needsData failedMessage errorPrefix h
  cases operation <;>
    simp [settled, getRestaurantStatus, checkAvailability, assignTables, releaseTables, hexchange,
      Except.map]

theorem status_notFound :
    mapDomainErrorToHttpStatus (.domain (.restaurantNotFound restaurantId)) = 404 := by
  simp [mapDomainErrorToHttpStatus, Thrown.isOneOf, Thrown.code, DomainError.code,
    HTTP_STATUS.NOT_FOUND]

theorem status_upstream (message : String) (upstreamStatusCode : Option Nat) :
    mapDomainErrorToHttpStatus (.domain (.upstreamServiceUnavailable message upstreamStatusCode)) =
      (upstreamStatusCode.filter (· ≠ 0)).getD 503 := by
  simp [mapDomainErrorToHttpStatus, Thrown.isOneOf, Thrown.code, DomainError.code,
    Thrown.upstreamStatusCode, DomainError.upstreamStatusCode, HTTP_STATUS.SERVICE_UNAVAILABLE]

/-- The breaker's classifier and the HTTP mapper look at an error that was translated
into one of the domain the same way. -/
theorem checkIsFailure_iff {error : DomainError} (h : Translated restaurantId outcome (.domain error)) :
    checkIsFailure (.domain error) = true ↔ 500 ≤ mapDomainErrorToHttpStatus (.domain error) := by
  cases h with
  | notFound =>
    rw [status_notFound]
    simp [checkIsFailure]
  | unspecified message =>
    rw [status_upstream]
    simp [checkIsFailure]
  | unavailable message =>
    rw [status_upstream]
    exact ⟨fun _ => by decide, fun _ => rfl⟩
  | client message status hstatus =>
    have hrange : HTTP_STATUS.BAD_REQUEST ≤ status ∧ status < HTTP_STATUS.INTERNAL_SERVER_ERROR := by
      simpa only [clientError, Bool.and_eq_true, decide_eq_true_eq] using hstatus
    simp only [HTTP_STATUS.BAD_REQUEST, HTTP_STATUS.INTERNAL_SERVER_ERROR] at hrange
    have hnonzero : status ≠ 0 := by omega
    have hexempt :
        checkIsFailure (.domain (.upstreamServiceUnavailable message (some status))) = false := by
      simp [checkIsFailure, hstatus, hnonzero]
    rw [status_upstream, hexempt]
    simp [Option.filter, hnonzero]
    omega

/-- The breaker counts the language's own error, the mapper knows no code of it. -/
theorem other_misclassified :
    checkIsFailure .other = true ∧ ¬ 500 ≤ mapDomainErrorToHttpStatus .other := by decide

theorem call_error {timeoutMs : Nat} {operation : Operation} {thrown : Thrown} :
    call printNumber restaurantId outcome timeoutMs operation = .error thrown ↔
      settled printNumber restaurantId outcome operation = .error thrown := by
  rw [call]
  cases settled printNumber restaurantId outcome operation <;> exact Iff.rfl

/-- The breaker counts the operation as failed. -/
def CountedAsFailure (operation : Operation) : Prop :=
  ∃ thrown, settled printNumber restaurantId outcome operation = .error thrown ∧
    checkIsFailure thrown = true

/-- The call rejects with an error whose status is one of a server error. -/
def RejectsAsServerError (timeoutMs : Nat) (operation : Operation) : Prop :=
  ∃ thrown, call printNumber restaurantId outcome timeoutMs operation = .error thrown ∧
    500 ≤ mapDomainErrorToHttpStatus thrown

/-- What the breaker counts as a failure is what the mapper makes a server error of,
but for an error answer whose message makes its own translation throw. -/
theorem failures_classified_iff (timeoutMs : Nat) (operation : Operation) :
    (CountedAsFailure printNumber restaurantId outcome operation ↔
      RejectsAsServerError printNumber restaurantId outcome timeoutMs operation) ↔
      ¬ Unreadable outcome := by
  unfold CountedAsFailure RejectsAsServerError
  simp only [call_error]
  constructor
  · intro h hunreadable
    have hother := settled_unreadable printNumber restaurantId outcome operation hunreadable
    obtain ⟨thrown, hthrown, hstatus⟩ := h.mp ⟨.other, hother, other_misclassified.1⟩
    rw [hother] at hthrown
    cases hthrown
    exact other_misclassified.2 hstatus
  · intro hreadable
    refine exists_congr fun thrown => and_congr_right fun hthrown => ?_
    have htranslated := settled_error printNumber restaurantId outcome hthrown
    cases thrown with
    | domain error => exact checkIsFailure_iff restaurantId outcome htranslated
    | axios response message => cases htranslated
    | other =>
      cases htranslated with
      | unreadable houtcome => exact absurd houtcome hreadable

/-- The message of this refusal is an object with a field `toString`. -/
def objectInsteadOfMessage : UpstreamOutcome :=
  .httpError (some ⟨422, .object [("message", .object [("toString", .number 1)])]⟩)
    "Request failed with status code 422"

theorem refusal_counted :
    ¬ ∀ (printNumber : Rat → String) (restaurantId : String) (outcome : UpstreamOutcome)
      (timeoutMs : Nat) (operation : Operation),
      CountedAsFailure printNumber restaurantId outcome operation ↔
        RejectsAsServerError printNumber restaurantId outcome timeoutMs operation := by
  intro h
  have hunreadable : Unreadable objectInsteadOfMessage := ⟨by decide, _, rfl, rfl⟩
  have hother := settled_unreadable (fun _ => "") "r" _ .getRestaurantStatus hunreadable
  obtain ⟨thrown, hthrown, hstatus⟩ := (h _ _ _ 0 _).mp ⟨.other, hother, other_misclassified.1⟩
  rw [call_error, hother] at hthrown
  cases hthrown
  exact other_misclassified.2 hstatus

end SpotQueue.UpstreamFailures
