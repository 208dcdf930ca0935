import SpotQueue.Repository
import SpotQueue.Awaits.AsyncProgram

namespace SpotQueue.Environment

open SpotQueue.Entity SpotQueue.Repository SpotQueue.Awaits.AsyncProgram

structure AssignTableItem where
  tableId : String
  count : Nat
deriving DecidableEq

structure ReleaseTableItem where
  tableId : Uuid
  occupancyToRelease : Nat
deriving DecidableEq

/-- What the validation reads of the restaurant service's status answer. -/
structure RestaurantStatusResult where
  restaurantId : String
  isBlocked : Bool
  blockReason : Option String
  isSubscriptionActive : Bool
  subscriptionPlanCode : Option String
deriving DecidableEq

structure TableAvailabilityResult where
  isOpen : Bool
  acceptsQueue : Bool
  isTableAvailable : Bool
  availableCount : Nat
deriving DecidableEq

structure LiveQueueEntryState where
  queueEntryId : String
  restaurantId : String
  position : Nat
  currentEta : Nat
  updatedAt : Time
deriving DecidableEq

structure MlEtaTrainingEvent where
  queueEntryId : Uuid
  restaurantId : Uuid
  partySize : Nat
  joinedAt : Time
  seatedAt : Time
  totalPeopleAheadAtJoin : Nat
deriving DecidableEq

structure PushNotificationJob where
  fid : String
  guestName : String
  deepLink : Option String
  queueEntryId : Uuid
  restaurantId : Uuid
deriving DecidableEq

inductive ServerEvent
  | queueEntryCreated | queueEntrySeated | queueEntrySkipped | queueEntryCancelled
  | queueEntryNoShow | queuePositionUpdated | ticketCalled | ticketSeated
deriving DecidableEq

inductive Payload
  | created (restaurantId : String) (queueEntry : QueueEntry)
  | seated (queueEntryId : String) (restaurantId : Option String) (status : QueueStatus)
      (tableIds : List String) (seatedAt : Option Time)
  | skipped (queueEntryId restaurantId : Uuid) (status : QueueStatus) (reason : String)
      (position : Option Nat)
  | cancelled (queueEntryId restaurantId : Uuid) (status : QueueStatus) (reason : String)
      (notes : Option String) (cancelledAt : Time)
  | positionUpdated (queueEntryId : Uuid) (restaurantId : String)
      (position estimatedWaitMinutes : Nat)
  | positionsUpdated (restaurantId : String) (updatedEntries : List (Uuid × Nat × Nat))
  | called (queueEntryId restaurantId : Uuid) (ringCount : Nat) (lastRingedAt : Option Time)
      (deepLink : Option String)
deriving DecidableEq

structure RegisterQueueOutput where
  queueEntryId : Uuid
  restaurantId : Uuid
  userId : Option Uuid
  guestName : String
  guestPhone : String
  queueNumber : String
  partySize : Nat
  specialNotes : Option String
  registrationType : RegistrationType
  position : Nat
  estimatedWaitMinutes : Nat
  status : QueueStatus
  joinedAt : Time

/-- What leaves the service towards its clients: the two kinds of room message
and the response a registration is answered with. -/
inductive Delivery
  | toTicket (ticketId : String) (event : ServerEvent) (data : Payload)
  | toRestaurant (restaurantId : String) (event : ServerEvent) (data : Payload)
  | registered (response : RegisterQueueOutput)

/-- Everything a use case asks of its surroundings. `now` and `randomUUID` are
answered by the process itself and cannot fail. -/
inductive Call
  | now
  | randomUUID
  | getRestaurantStatus (restaurantId : String)
  | checkAvailability (restaurantId : String) (partySize : Nat)
  | assignTables (restaurantId : String) (tables : List AssignTableItem)
  | releaseTables (restaurantId : String) (tables : List ReleaseTableItem)
  | predictEta (restaurantId : String) (totalPeopleAhead partySize : Nat)
  | findById (id : String)
  | findActiveEntries (restaurantId : String)
  | findActiveByPhone (restaurantId phone : String)
  | findActiveByUserId (userId : String)
  | getRegistrationMetrics (restaurantId : String)
  | countPeopleAheadAtJoin (restaurantId : String) (joinedAt : Time)
  | createWithHistory (queueEntry : QueueEntry) (changedBy : String)
  | assignTablesWithHistory (queueEntry : QueueEntry) (tableIds : List String) (assignedBy : String)
      (previousStatus : QueueStatus)
  | updateStatusWithHistory (params : UpdateStatusWithHistoryParams)
  | save (queueEntry : QueueEntry)
  | findActiveTableAssignments (queueEntryId : String)
  | releaseTableAssignments (queueEntryId : String)
  | batchUpdatePositions (updates : List PositionUpdate)
  | redisSet (key : String) (state : LiveQueueEntryState)
  | redisDel (key : String)
  | broadcastToRestaurant (restaurantId : String) (event : ServerEvent) (data : Payload)
  | sendToTicket (ticketId : String) (event : ServerEvent) (data : Payload)
  | addJob (job : PushNotificationJob)
  | publishToMlEta (event : MlEtaTrainingEvent)
deriving DecidableEq

@[reducible] def Answer : Call → Type
  | .now => Time
  | .randomUUID => Uuid
  | .getRestaurantStatus _ => RestaurantStatusResult
  | .checkAvailability _ _ => TableAvailabilityResult
  | .predictEta _ _ _ => Nat
  | .findById _ | .findActiveByPhone _ _ | .findActiveByUserId _ => Option QueueEntry
  | .findActiveEntries _ => List QueueEntry
  | .getRegistrationMetrics _ => RegistrationMetrics
  | .countPeopleAheadAtJoin _ _ => Nat
  | .createWithHistory _ _ | .assignTablesWithHistory _ _ _ _ | .updateStatusWithHistory _ => QueueEntry
  | .findActiveTableAssignments _ => List TableAssignment
  | _ => Unit

instance (c : Call) : DecidableEq (Answer c) := by cases c <;> infer_instance

abbrev UseCase (α : Type) := Program Call Answer QueueError α

abbrev ask (c : Call) : UseCase (Answer c) := call c

structure World where
  store : Store
  cache : String → Option LiveQueueEntryState
  occupancy : Uuid → Int
  deliveries : List Delivery
  clock : Time

def World.empty (clock : Time) : World := ⟨.empty, fun _ => none, fun _ => 0, [], clock⟩

def World.at (w : World) (t : Time) : World := { w with clock := t }

def World.deliver (w : World) (d : Delivery) : World := { w with deliveries := w.deliveries ++ [d] }

def World.commit (w : World) (s : Store) : World := { w with store := s }

def assignedCount (tables : List AssignTableItem) (tableId : Uuid) : Nat :=
  ((tables.filter fun t => .ofText t.tableId = tableId).map (·.count)).sum

def releasedCount (tables : List ReleaseTableItem) (tableId : Uuid) : Nat :=
  ((tables.filter fun t => t.tableId = tableId).map (·.occupancyToRelease)).sum

/-- What the surroundings of a run are like: how the clock moves from call to call
and from operation to operation, which calls may be rejected, what predictions
may come back, the local midnight. -/
structure Env where
  tick : Time → Time → Prop
  pause : Time → Time → Prop
  fails : Call → Prop
  eta : Uuid → Nat → Nat → Nat → Prop
  startOfDay : Time → Time

/-- One transaction on the store: it commits and answers `a`, or commits nothing. -/
def Transacts {α : Type} (result : Except QueueError Store) (a : α) (w : World)
    (x : Except QueueError α) (w' : World) : Prop :=
  match result with
  | .ok s => x = .ok a ∧ w' = w.commit s
  | .error e => x = .error e ∧ w' = w

def Env.Performs (E : Env) : (c : Call) → World → Except QueueError (Answer c) → World → Prop
  | .now, w, x, w' => x = .ok w.clock ∧ w' = w
  | .randomUUID, w, x, w' => (∃ u, x = .ok u) ∧ w' = w
  | .getRestaurantStatus _, w, x, w' => (∃ status, x = .ok status) ∧ w' = w
  | .checkAvailability _ _, w, x, w' => (∃ check, x = .ok check) ∧ w' = w
  | .assignTables _ tables, w, x, w' =>
    x = .ok () ∧ w' = { w with occupancy := fun t => w.occupancy t + assignedCount tables t }
  | .releaseTables _ tables, w, x, w' =>
    x = .ok () ∧ w' = { w with occupancy := fun t => w.occupancy t - releasedCount tables t }
  | .predictEta restaurantId ahead partySize, w, x, w' =>
    (∃ minutes, E.eta (.ofText restaurantId) ahead partySize minutes ∧ x = .ok minutes) ∧ w' = w
  | .findById id, w, x, w' => x = .ok (w.store.findById id) ∧ w' = w
  | .findActiveEntries restaurantId, w, x, w' =>
    (∃ l, IsLine w.store (.ofText restaurantId) l ∧ x = .ok l) ∧ w' = w
  | .findActiveByPhone restaurantId phone, w, x, w' =>
    (∃ o, (∀ e ∈ o, e ∈ w.store.activeByPhone (.ofText restaurantId) phone) ∧
      (o = none → w.store.activeByPhone (.ofText restaurantId) phone = []) ∧ x = .ok o) ∧ w' = w
  | .findActiveByUserId userId, w, x, w' =>
    (∃ o, (∀ e ∈ o, e ∈ w.store.activeByUserId (.ofText userId) ∧
        ∀ d ∈ w.store.activeByUserId (.ofText userId), d.joinedAt ≤ e.joinedAt) ∧
      (o = none → w.store.activeByUserId (.ofText userId) = []) ∧ x = .ok o) ∧ w' = w
  | .getRegistrationMetrics restaurantId, w, x, w' =>
    x = .ok (w.store.getRegistrationMetrics restaurantId (E.startOfDay w.clock)) ∧ w' = w
  | .countPeopleAheadAtJoin restaurantId joinedAt, w, x, w' =>
    x = .ok (w.store.countPeopleAheadAtJoin restaurantId joinedAt) ∧ w' = w
  | .createWithHistory e changedBy, w, x, w' =>
    Transacts (w.store.createWithHistory e changedBy w.clock) e w x w'
  | .assignTablesWithHistory e tableIds assignedBy previousStatus, w, x, w' =>
    Transacts (w.store.assignTablesWithHistory e tableIds assignedBy previousStatus w.clock) e w x w'
  | .updateStatusWithHistory params, w, x, w' =>
    Transacts (w.store.updateStatusWithHistory params w.clock) params.queueEntry w x w'
  | .save e, w, x, w' => x = .ok () ∧ w' = w.commit (w.store.save e)
  | .findActiveTableAssignments queueEntryId, w, x, w' =>
    (∃ l, l.Perm (w.store.activeAssignments (.ofText queueEntryId)) ∧ x = .ok l) ∧ w' = w
  | .releaseTableAssignments queueEntryId, w, x, w' =>
    x = .ok () ∧ w' = w.commit (w.store.releaseTableAssignments queueEntryId w.clock)
  | .batchUpdatePositions us, w, x, w' =>
    Transacts (w.store.batchUpdatePositions us w.clock) () w x w'
  | .redisSet key state, w, x, w' =>
    x = .ok () ∧ w' = { w with cache := Function.update w.cache key (some state) }
  | .redisDel key, w, x, w' =>
    x = .ok () ∧ w' = { w with cache := Function.update w.cache key none }
  | .broadcastToRestaurant restaurantId event data, w, x, w' =>
    x = .ok () ∧ w' = w.deliver (.toRestaurant restaurantId event data)
  | .sendToTicket ticketId event data, w, x, w' =>
    x = .ok () ∧ w' = w.deliver (.toTicket ticketId event data)
  | .addJob _, w, x, w' => x = .ok () ∧ w' = w
  | .publishToMlEta _, w, x, w' => x = .ok () ∧ w' = w

def Call.Dependency : Call → Prop
  | .now | .randomUUID => False
  | _ => True

/-- Time passes, then the call takes effect as a whole or is rejected and does nothing. -/
def Env.Answers (E : Env) : Answers Call Answer QueueError World := fun c w x w' =>
  ∃ t, E.tick w.clock t ∧ (E.Performs c (w.at t) x w' ∨
    c.Dependency ∧ E.fails c ∧ x = .error .dependency ∧ w' = w.at t)

end SpotQueue.Environment
