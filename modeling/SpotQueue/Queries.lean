import SpotQueue.UseCases
import SpotQueue.Awaits.AsyncProtocol

namespace SpotQueue.Queries

open SpotQueue.Entity SpotQueue.Repository SpotQueue.Environment SpotQueue.UseCases
open SpotQueue.Awaits.AsyncProgram SpotQueue.Awaits.AsyncProtocol

structure ActiveQueueMetrics where
  queueDepth : Nat
  totalPeopleAhead : Nat
deriving DecidableEq

def getActiveQueueMetrics (s : Store) (restaurantId : String) : ActiveQueueMetrics where
  queueDepth := (s.waiting (.ofText restaurantId)).length
  totalPeopleAhead := sumPartySize (s.waiting (.ofText restaurantId))

def activeByUserIdAndRestaurantId (s : Store) (restaurantId userId : Uuid) : List QueueEntry :=
  s.entries.filter fun e =>
    e.restaurantId = restaurantId ∧ e.userId = some userId ∧ e.status = .waiting

/-- The calls of the staff and customer operations, and two reads more. -/
inductive QueryCall
  | shared (c : Call)
  | getActiveQueueMetrics (restaurantId : String)
  | findActiveByUserIdAndRestaurantId (restaurantId userId : String)

@[reducible] def QueryAnswer : QueryCall → Type
  | .shared c => Answer c
  | .getActiveQueueMetrics _ => ActiveQueueMetrics
  | .findActiveByUserIdAndRestaurantId _ _ => Option QueueEntry

abbrev Query (α : Type) := Program QueryCall QueryAnswer QueueError α

abbrev askShared (c : Call) : Query (Answer c) := call (C := QueryCall) (.shared c)

/-- A part that the queries have in common with the operations. -/
def onQuery {α : Type} (p : UseCase α) : Query α := expand askShared p

structure GetQueueEtaInput where
  restaurantId : String
  partySize : Nat

structure GetQueueEtaOutput where
  restaurantId : String
  partySize : Nat
  estimatedWaitMinutes : Nat
  queueDepth : Nat
  calculatedAt : Time
deriving DecidableEq

def getQueueEta (input : GetQueueEtaInput) : Query GetQueueEtaOutput := do
  let restaurantStatus ← askShared (.getRestaurantStatus input.restaurantId)
  onQuery (validateRestaurantActiveSubscription restaurantStatus)
  let tableCheck ← askShared (.checkAvailability input.restaurantId input.partySize)
  if !tableCheck.isOpen || !tableCheck.acceptsQueue then
    throw .restaurantNotAccepting
  let metrics ← call (C := QueryCall) (.getActiveQueueMetrics input.restaurantId)
  if tableCheck.isTableAvailable && metrics.queueDepth = 0 then
    let calculatedAt ← askShared .now
    return ⟨input.restaurantId, input.partySize, 0, metrics.queueDepth, calculatedAt⟩
  let estimatedWaitMinutes ←
    askShared (.predictEta input.restaurantId metrics.totalPeopleAhead input.partySize)
  let calculatedAt ← askShared .now
  return ⟨input.restaurantId, input.partySize, estimatedWaitMinutes, metrics.queueDepth, calculatedAt⟩

structure GetActiveQueueByUserInput where
  restaurantId : String
  userId : String

structure ActiveQueueDetails where
  queueEntryId : Uuid
  restaurantId : Uuid
  userId : Option Uuid
  queueNumber : String
  partySize : Nat
  status : QueueStatus
  position : Option Nat
  estimatedWaitMinutes : Option Nat
  joinedAt : Time

structure GetActiveQueueByUserResponse where
  hasActiveQueue : Bool
  queueEntry : Option ActiveQueueDetails

def getActiveQueueByUser (input : GetActiveQueueByUserInput) : Query GetActiveQueueByUserResponse := do
  let activeEntry ← call (C := QueryCall)
    (.findActiveByUserIdAndRestaurantId input.restaurantId input.userId)
  match activeEntry with
  | none => return ⟨false, none⟩
  | some e => return ⟨true, some ⟨e.id, e.restaurantId, e.userId, e.queueNumber, e.partySize, e.status,
      e.position, e.estimatedWaitMinutes, e.joinedAt⟩⟩

structure GetCustomerQueueStatusOutput where
  restaurantId : Uuid
  queueEntryId : Uuid

def getCustomerQueueStatus (userId : String) : Query (Option GetCustomerQueueStatusOutput) := do
  let queueEntry ← askShared (.findActiveByUserId userId)
  match queueEntry with
  | none => return none
  | some e =>
    if e.status ≠ .waiting then
      return none
    return some ⟨e.restaurantId, e.id⟩

/-- The shared calls are answered as `H` says. A read of the store takes some
time and may be rejected. -/
def QueryAnswers (E : Env) (H : Answers Call Answer QueueError World) :
    Answers QueryCall QueryAnswer QueueError World := fun c w x w' =>
  match c with
  | .shared c => H c w x w'
  | .getActiveQueueMetrics restaurantId => ∃ t, E.tick w.clock t ∧ w' = w.at t ∧
      (x = .error .dependency ∨ x = .ok (getActiveQueueMetrics w.store restaurantId))
  | .findActiveByUserIdAndRestaurantId restaurantId userId => ∃ t, E.tick w.clock t ∧ w' = w.at t ∧
      (x = .error .dependency ∨ ∃ o,
        (∀ e ∈ o, e ∈ activeByUserIdAndRestaurantId w.store (.ofText restaurantId) (.ofText userId) ∧
          ∀ d ∈ activeByUserIdAndRestaurantId w.store (.ofText restaurantId) (.ofText userId),
            d.joinedAt ≤ e.joinedAt) ∧
        (o = none →
          activeByUserIdAndRestaurantId w.store (.ofText restaurantId) (.ofText userId) = []) ∧
        x = .ok o)

variable {E : Env} {H : Answers Call Answer QueueError World} {w w' : World} {α : Type}

theorem onQuery_executes {p : UseCase α} {x : Except QueueError α}
    (h : Executes (QueryAnswers E H) (onQuery p) w x w') : Executes H p w x w' := by
  have hshared : ∀ {c : Call} {s : World} {x : Except QueueError (Answer c)} {t : World},
      Executes (QueryAnswers E H) (askShared c) s x t → H c s x t := fun h =>
      (executes_call (A := QueryAnswer) (c := .shared _)).mp h
  exact executes_expand hshared h

end SpotQueue.Queries
