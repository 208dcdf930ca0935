import SpotQueue.Environment

namespace SpotQueue.Recalculator

open SpotQueue.Entity SpotQueue.Repository SpotQueue.Environment SpotQueue.Awaits.AsyncProgram

def KEY_PREFIX : String := "queue:live:"

def getKey (queueEntryId : String) : String := KEY_PREFIX ++ queueEntryId

/-- RedisQueueCacheService swallows the failures of its client. -/
def saveLiveEntry (queueEntryId restaurantId : String) (position currentEta : Nat) : UseCase Unit :=
  tryCatch
    (do
      let updatedAt ← ask .now
      ask (.redisSet (getKey queueEntryId)
        ⟨queueEntryId, restaurantId, position, currentEta, updatedAt⟩))
    fun _ => pure ()

def removeLiveEntry (queueEntryId : String) : UseCase Unit :=
  tryCatch (ask (.redisDel (getKey queueEntryId))) fun _ => pure ()

structure EntryInput where
  entry : QueueEntry
  newPosition : Nat
  peopleAhead : Nat

/-- The map over the active entries; `i` and `runningPeopleAhead` are its loop state. -/
def entryInputs (i runningPeopleAhead : Nat) : List QueueEntry → List EntryInput
  | [] => []
  | entry :: rest =>
    ⟨entry, i + 1, runningPeopleAhead⟩ ::
      entryInputs (i + 1) (runningPeopleAhead + entry.partySize) rest

structure PositionDelta where
  id : Uuid
  oldPosition : Option Nat
  newPosition : Nat
  oldEta : Option Nat
  newEta : Nat
  partySize : Nat

def delta (input : EntryInput) (predictedEta : Nat) : Option PositionDelta :=
  if input.entry.position ≠ some input.newPosition ∨
      input.entry.estimatedWaitMinutes ≠ some predictedEta then
    some ⟨input.entry.id, input.entry.position, input.newPosition,
      input.entry.estimatedWaitMinutes, predictedEta, input.entry.partySize⟩
  else none

def deltas (inputs : List EntryInput) (predictedEtas : List Nat) : List PositionDelta :=
  (inputs.zip predictedEtas).filterMap fun p => delta p.1 p.2

def PositionDelta.update (d : PositionDelta) : PositionUpdate := ⟨d.id, d.newPosition, some d.newEta⟩

/-- batchUpdatePositions returns at once when there is nothing to update. -/
def batchUpdatePositions (updates : List PositionUpdate) : UseCase Unit :=
  if updates.isEmpty then pure () else ask (.batchUpdatePositions updates)

structure PositionRecalculationResult where
  affectedCount : Nat
  updatedEntryIds : List Uuid
deriving DecidableEq

def predictEtas (restaurantId : String) (inputs : List EntryInput) : UseCase (List Nat) :=
  gather (fun item => ask (.predictEta restaurantId item.peopleAhead item.entry.partySize)) inputs

def cacheDelta (restaurantId : String) (d : PositionDelta) : UseCase Unit :=
  tryCatch (saveLiveEntry d.id.text restaurantId d.newPosition d.newEta) fun _ => pure ()

def notifyDelta (restaurantId : String) (d : PositionDelta) : UseCase Unit :=
  tryCatch
    (ask (.sendToTicket d.id.text .queuePositionUpdated
      (.positionUpdated d.id restaurantId d.newPosition d.newEta)))
    fun _ => pure ()

def notifyRestaurant (restaurantId : String) (ds : List PositionDelta) : UseCase Unit :=
  tryCatch
    (ask (.broadcastToRestaurant restaurantId .queuePositionUpdated
      (.positionsUpdated restaurantId (ds.map fun d => (d.id, d.newPosition, d.newEta)))))
    fun _ => pure ()

/-- The three report channels, driven by the deltas once they are committed. -/
def report (restaurantId : String) (ds : List PositionDelta) : UseCase Unit := do
  let _ ← gather (cacheDelta restaurantId) ds
  let _ ← gather (notifyDelta restaurantId) ds
  notifyRestaurant restaurantId ds

def recalculate (restaurantId : String) : UseCase PositionRecalculationResult := do
  let activeEntries : List QueueEntry ← ask (.findActiveEntries restaurantId)
  if activeEntries.isEmpty then
    return ⟨0, []⟩
  let inputs := entryInputs 0 0 activeEntries
  let predictedEtas ← predictEtas restaurantId inputs
  let ds := deltas inputs predictedEtas
  if ds.isEmpty then
    return ⟨0, []⟩
  batchUpdatePositions (ds.map (·.update))
  report restaurantId ds
  return ⟨ds.length, ds.map (·.id)⟩

end SpotQueue.Recalculator
