import SpotQueue.Environment
import Mathlib.Algebra.Order.Round
import Mathlib.Data.Rat.Floor
import Mathlib.Tactic.Linarith

namespace SpotQueue.EtaClient

open SpotQueue.Entity SpotQueue.Environment

def ETA_CONSTANTS.BASE_FALLBACK_MINUTES : Rat := 5

def ETA_CONSTANTS.FALLBACK_MINUTES_PER_PERSON : Rat := 5 / 2

/-- The query of a prediction. -/
structure PredictionRequest where
  restaurant_id : Uuid
  total_people_ahead : Nat
  party_size : Nat

/-- A number as a response carries it, the finite ones taken exactly. -/
inductive Number
  | finite (value : Rat)
  | infinite (negative : Bool)
  | nan

/-- What a request comes to: a response with its `estimated_wait_minutes`, where
that is a number, or the error it is rejected with. -/
inductive PredictionOutcome (ε : Type)
  | responded (estimated_wait_minutes : Option Number)
  | failed (error : ε)

variable {ε : Type}

/-- `Math.round` takes halves up, as `round` does. Halves are doubles up to 2^52. -/
def computeFallbackMinutes (totalPeopleAhead : Nat) : Rat :=
  max ETA_CONSTANTS.BASE_FALLBACK_MINUTES
    (round (totalPeopleAhead * ETA_CONSTANTS.FALLBACK_MINUTES_PER_PERSON))

def callPredictionApi (totalPeopleAhead : Nat) : PredictionOutcome ε → Except ε Rat
  | .responded (some (.finite minutes)) => .ok (max (0 : Rat) (round minutes))
  | .responded _ => .ok (computeFallbackMinutes totalPeopleAhead)
  | .failed error => .error error

/-- The ways the breaker settles a call: with its result, with the value of the
fallback it was configured with, or by rejecting. -/
inductive BreakerSettles (result : Except ε Rat) (fallback : Rat) : Except ε Rat → Prop
  | returned : BreakerSettles result fallback result
  | fellBack : BreakerSettles result fallback (.ok fallback)
  | rejected (error : ε) : BreakerSettles result fallback (.error error)

/-- The try and its catch, once the breaker has settled. -/
def predictEta (totalPeopleAhead : Nat) : Except ε Rat → Rat
  | .ok minutes => minutes
  | .error _ => computeFallbackMinutes totalPeopleAhead

/-- What `predictEta` may return when its request comes to that outcome. -/
def Predicts (outcome : PredictionOutcome ε) (totalPeopleAhead : Nat) (minutes : Rat) : Prop :=
  ∃ settled, BreakerSettles (callPredictionApi totalPeopleAhead outcome)
    (computeFallbackMinutes totalPeopleAhead) settled ∧ minutes = predictEta totalPeopleAhead settled

/-- The model service, as what it may make of each request. -/
abbrev Service (ε : Type) := PredictionRequest → PredictionOutcome ε → Prop

/-- All predictions of the surroundings are the client's. -/
def FromClient (E : Env) (service : Service ε) : Prop :=
  ∀ r totalPeopleAhead partySize minutes, E.eta r totalPeopleAhead partySize minutes →
    ∃ outcome, service ⟨r, totalPeopleAhead, partySize⟩ outcome ∧
      Predicts outcome totalPeopleAhead minutes

variable {outcome : PredictionOutcome ε} {totalPeopleAhead : Nat} {minutes : Rat}

theorem predicts_iff : Predicts outcome totalPeopleAhead minutes ↔
    minutes = computeFallbackMinutes totalPeopleAhead ∨
      ∃ value, outcome = .responded (some (.finite value)) ∧ minutes = max (0 : Rat) (round value) := by
  constructor
  · rintro ⟨settled, hsettles, rfl⟩
    cases hsettles with
    | fellBack => exact .inl rfl
    | rejected => exact .inl rfl
    | returned =>
      cases outcome with
      | failed => exact .inl rfl
      | responded field =>
        obtain _ | ⟨value | _ | _⟩ := field
        · exact .inl rfl
        · exact .inr ⟨value, rfl, rfl⟩
        · exact .inl rfl
        · exact .inl rfl
  · rintro (rfl | ⟨value, rfl, rfl⟩)
    · exact ⟨_, .fellBack, rfl⟩
    · exact ⟨_, .returned, rfl⟩

theorem round_halves (n : Nat) : round ((n : Rat) * (5 / 2)) = ⌈(5 * n : Rat) / 2⌉ := by
  obtain ⟨k, rfl | rfl⟩ := n.even_or_odd'
  · have hwhole : ((2 * k : Nat) : Rat) * (5 / 2) = (5 * k : Nat) := by
      push_cast
      ring
    have hsame : (5 * (2 * k : Nat) : Rat) / 2 = (5 * k : Nat) := by
      push_cast
      ring
    rw [hwhole, hsame, round_natCast, Int.ceil_natCast]
  · have hhalf : ((2 * k + 1 : Nat) : Rat) * (5 / 2) + 1 / 2 = (5 * k + 3 : Nat) := by
      push_cast
      ring
    rw [round_eq, hhalf, Int.floor_natCast, eq_comm, Int.ceil_eq_iff]
    constructor
    · push_cast
      linarith
    · push_cast
      linarith

/-- The fallback in whole minutes. -/
def fallbackMinutes (totalPeopleAhead : Nat) : Nat := max 5 ⌈(5 * totalPeopleAhead : Rat) / 2⌉₊

theorem computeFallbackMinutes_eq (n : Nat) : computeFallbackMinutes n = fallbackMinutes n := by
  have hnonneg : (0 : Rat) ≤ (5 * n : Rat) / 2 := by positivity
  rw [computeFallbackMinutes, ETA_CONSTANTS.BASE_FALLBACK_MINUTES,
    ETA_CONSTANTS.FALLBACK_MINUTES_PER_PERSON, round_halves, fallbackMinutes, Nat.cast_max,
    natCast_ceil_eq_intCast_ceil hnonneg]
  rfl

theorem fallbackMinutes_mono {m n : Nat} (h : m ≤ n) : fallbackMinutes m ≤ fallbackMinutes n := by
  apply max_le_max_left
  apply Nat.ceil_mono
  have hcast : (m : Rat) ≤ n := Nat.cast_le.mpr h
  linarith

end SpotQueue.EtaClient
