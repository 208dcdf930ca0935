import SpotQueue.Recalculator
import SpotQueue.Awaits.AsyncPool

namespace SpotQueue.UseCases

open SpotQueue.Entity SpotQueue.Repository SpotQueue.Environment SpotQueue.Recalculator
open SpotQueue.Awaits.AsyncProgram SpotQueue.Awaits.AsyncPool

def SYSTEM : String := "system"

def QUEUE_PRO : String := "QUEUE_PRO"

def validateRestaurantActiveSubscription (status : RestaurantStatusResult) : UseCase Unit := do
  if status.isBlocked then
    throw (.restaurantBlocked status.restaurantId status.blockReason)
  if !status.isSubscriptionActive || status.subscriptionPlanCode ≠ some QUEUE_PRO then
    throw (.queueProSubscriptionRequired status.restaurantId status.subscriptionPlanCode)

/-- The gateway lets no empty identity through, so the truthiness tests of the
source are tests for presence. -/
structure RegisterQueueInput where
  restaurantId : String
  userId : Option String
  staffUserId : Option String
  guestName : String
  guestPhone : String
  partySize : Nat
  specialNotes : Option String
  fid : Option String
  registrationType : Option RegistrationType
  userId_nonempty : userId ≠ some ""
  staffUserId_nonempty : staffUserId ≠ some ""

def toOutputDTO (entry : QueueEntry) : RegisterQueueOutput where
  queueEntryId := entry.id
  restaurantId := entry.restaurantId
  userId := entry.userId
  guestName := entry.guestName
  guestPhone := entry.phone
  queueNumber := entry.queueNumber
  partySize := entry.partySize
  specialNotes := entry.specialNotes
  registrationType := entry.registrationType
  position := entry.position.getD 0
  estimatedWaitMinutes := entry.estimatedWaitMinutes.getD 0
  status := entry.status
  joinedAt := entry.joinedAt

def findActiveUser (input : RegisterQueueInput) : UseCase (Option QueueEntry) :=
  match input.userId with
  | some userId => ask (.findActiveByUserId userId)
  | none => pure none

/-- The gates and the two duplicate checks in front of a registration. -/
def checkAdmission (input : RegisterQueueInput) : UseCase Unit := do
  let restaurantStatus ← ask (.getRestaurantStatus input.restaurantId)
  validateRestaurantActiveSubscription restaurantStatus
  let tableCheck ← ask (.checkAvailability input.restaurantId input.partySize)
  if !tableCheck.isOpen || !tableCheck.acceptsQueue then
    throw .restaurantNotAccepting
  if tableCheck.isTableAvailable then
    throw (.tablesAvailable tableCheck.availableCount)
  let existingActivePhone ← ask (.findActiveByPhone input.restaurantId input.guestPhone)
  let existingActiveUser ← findActiveUser input
  if existingActivePhone.isSome then
    throw (.activeQueueEntryExists input.guestPhone)
  if existingActiveUser.isSome then
    throw .activeUserQueueEntryExists

def resolvedType (input : RegisterQueueInput) : RegistrationType :=
  input.registrationType.getD
    (if input.userId.isSome && !input.staffUserId.isSome then .online else .walkIn)

def changedBy (input : RegisterQueueInput) : String :=
  (input.staffUserId <|> input.userId).getD SYSTEM

/-- Cache and broadcast of a committed registration; neither can undo it. -/
def announce (input : RegisterQueueInput) (position estimatedWaitMinutes : Nat)
    (persisted : QueueEntry) : UseCase Unit := do
  tryCatch (saveLiveEntry persisted.id.text input.restaurantId position estimatedWaitMinutes)
    fun _ => pure ()
  tryCatch
    (ask (.broadcastToRestaurant input.restaurantId .queueEntryCreated
      (.created input.restaurantId persisted)))
    fun _ => pure ()

def registerQueue (input : RegisterQueueInput) : UseCase RegisterQueueOutput := do
  checkAdmission input
  let metrics ← ask (.getRegistrationMetrics input.restaurantId)
  let position := metrics.queueDepth + 1
  let queueNumber := countedQueueNumber (resolvedType input) (metrics.countToday + 1)
  let estimatedWaitMinutes ←
    ask (.predictEta input.restaurantId metrics.totalPeopleAhead input.partySize)
  let id ← ask .randomUUID
  let now ← ask .now
  let queueEntry := create
    { restaurantId := input.restaurantId
      userId := input.userId
      guestName := input.guestName
      phone := input.guestPhone
      queueNumber := queueNumber
      partySize := input.partySize
      specialNotes := input.specialNotes
      fid := input.fid
      registrationType := resolvedType input
      position := position
      estimatedWaitMinutes := estimatedWaitMinutes } id now
  let persisted ← ask (.createWithHistory queueEntry (changedBy input))
  announce input position estimatedWaitMinutes persisted
  return toOutputDTO persisted

/-- The look-up every staff use case starts with. -/
def findOwned (restaurantId queueEntryId : String) : UseCase QueueEntry := do
  let queueEntry ← ask (.findById queueEntryId)
  match queueEntry with
  | none => throw (.queueEntryNotFound queueEntryId)
  | some e =>
    if e.restaurantId.text ≠ restaurantId then
      throw (.queueEntryNotFound queueEntryId)
    return e

/-- The error names the ticket as the caller spells it: the entity by its stored id. -/
def requireWaiting (queueEntryId : String) (e : QueueEntry) : UseCase Unit :=
  if e.status ≠ .waiting then throw (.queueEntryNotWaiting queueEntryId e.status) else pure ()

def seat (e : QueueEntry) : UseCase QueueEntry := do
  requireWaiting e.id.text e
  let seatedAt ← ask .now
  let updatedAt ← ask .now
  return e.seated seatedAt updatedAt

def skip (e : QueueEntry) : UseCase QueueEntry := do
  requireWaiting e.id.text e
  let updatedAt ← ask .now
  return e.skipped updatedAt

def cancel (e : QueueEntry) (status : QueueStatus) : UseCase QueueEntry := do
  requireWaiting e.id.text e
  let cancelledAt ← ask .now
  let updatedAt ← ask .now
  return e.cancelled status cancelledAt updatedAt

/-- Entity `updatePosition`, called with a position only. -/
def updatePosition (e : QueueEntry) (newPosition : Nat) : UseCase QueueEntry := do
  if e.status ≠ .waiting then
    return e
  let updatedAt ← ask .now
  return e.moved newPosition updatedAt

def ring (e : QueueEntry) : UseCase QueueEntry := do
  requireWaiting e.id.text e
  if e.registrationType = .walkIn then
    throw (.cannotRingWalkIn e.id.text)
  let lastRingedAt ← ask .now
  let updatedAt ← ask .now
  return e.rung lastRingedAt updatedAt

/-- One step of the distribution loop; the remainder is its state. -/
def share (base : Nat) : Nat → Nat → List Nat
  | _, 0 => []
  | remainder, n + 1 =>
    max 1 (base + if 0 < remainder then 1 else 0) :: share base (remainder - 1) n

/-- How a party is spread over `n` tables, in order; seating and releasing
repeat this loop. -/
def distribute (partySize n : Nat) : List Nat := share (partySize / n) (partySize % n) n

structure SeatPartyInput where
  restaurantId : String
  queueEntryId : String
  staffUserId : String
  tableIds : List String

structure SeatPartyOutput where
  queueEntryId : Uuid
  restaurantId : Uuid
  status : QueueStatus
  tableIds : List String
  seatedAt : Time

def assignmentPayload (partySize : Nat) (tableIds : List String) : List AssignTableItem :=
  tableIds.zipWith (⟨·, ·⟩) (distribute partySize tableIds.length)

/-- `(persisted.seatedAt ?? new Date())` and its likes. -/
def orNow : Option Time → UseCase Time
  | some t => pure t
  | none => ask .now

/-- What seating, skipping and cancelling do alike once their status is stored. -/
def closeRanks (queueEntryId restaurantId : String) : UseCase PositionRecalculationResult := do
  removeLiveEntry queueEntryId
  recalculate restaurantId

def notifySeated (input : SeatPartyInput) (persisted : QueueEntry) : UseCase SeatPartyOutput := do
  let seatedAt ← orNow persisted.seatedAt
  let payload := Payload.seated persisted.id.text (some persisted.restaurantId.text)
    persisted.status input.tableIds (some seatedAt)
  ask (.broadcastToRestaurant input.restaurantId .queueEntrySeated payload)
  ask (.sendToTicket input.queueEntryId .queueEntrySeated payload)
  return ⟨persisted.id, persisted.restaurantId, persisted.status, input.tableIds, seatedAt⟩

def seatParty (input : SeatPartyInput) : UseCase SeatPartyOutput := do
  let found ← findOwned input.restaurantId input.queueEntryId
  let queueEntry ← seat found
  ask (.assignTables input.restaurantId (assignmentPayload queueEntry.partySize input.tableIds))
  let persisted ← ask
    (.assignTablesWithHistory queueEntry input.tableIds input.staffUserId found.status)
  let _ ← closeRanks input.queueEntryId input.restaurantId
  notifySeated input persisted

/-- The body schema lets positive counts through only. -/
structure AssignTablesInput where
  restaurantId : String
  queueEntryId : String
  staffUserId : String
  tables : List AssignTableItem
  counts_pos : ∀ t ∈ tables, 0 < t.count

structure AssignTablesOutput where
  queueEntryId : Uuid
  restaurantId : Uuid
  tableIds : List String
  status : QueueStatus
  seatedAt : Time

/-- The count behind the training event; a failed query only drops the event. -/
def peopleAheadAtJoin (restaurantId : String) (joinedAt : Time) : UseCase (Option Nat) :=
  tryCatch
    (do
      let n ← ask (.countPeopleAheadAtJoin restaurantId joinedAt)
      return some n)
    fun _ => pure none

def announceSeated (input : AssignTablesInput) (tableIds : List String) (persisted : QueueEntry) :
    UseCase Unit :=
  tryCatch
    (do
      ask (.broadcastToRestaurant input.restaurantId .ticketSeated
        (.seated input.queueEntryId (some input.restaurantId) persisted.status tableIds
          persisted.seatedAt))
      ask (.sendToTicket input.queueEntryId .ticketSeated
        (.seated input.queueEntryId none persisted.status tableIds persisted.seatedAt)))
    fun _ => pure ()

def publishTraining (persisted : QueueEntry) : Option Nat → UseCase Unit
  | none => pure ()
  | some ahead => do
    let seatedAt ← orNow persisted.seatedAt
    tryCatch
      (ask (.publishToMlEta ⟨persisted.id, persisted.restaurantId, persisted.partySize,
        persisted.joinedAt, seatedAt, ahead⟩))
      fun _ => pure ()

/-- The guarded side channels of a committed assignment, then the response. -/
def afterAssigning (input : AssignTablesInput) (totalPeopleAheadAtJoin : Option Nat)
    (tableIds : List String) (persisted : QueueEntry) : UseCase AssignTablesOutput := do
  tryCatch (removeLiveEntry input.queueEntryId) fun _ => pure ()
  announceSeated input tableIds persisted
  publishTraining persisted totalPeopleAheadAtJoin
  let seatedAt ← orNow persisted.seatedAt
  return ⟨persisted.id, persisted.restaurantId, tableIds, persisted.status, seatedAt⟩

def assignTable (input : AssignTablesInput) : UseCase AssignTablesOutput := do
  let found ← findOwned input.restaurantId input.queueEntryId
  let totalAssignedSeats := (input.tables.map (·.count)).sum
  if totalAssignedSeats < found.partySize then
    throw (.insufficientTableCapacity found.partySize totalAssignedSeats)
  let totalPeopleAheadAtJoin ← peopleAheadAtJoin input.restaurantId found.joinedAt
  let queueEntry ← seat found
  ask (.assignTables input.restaurantId input.tables)
  let tableIds := input.tables.map (·.tableId)
  let persisted ← ask
    (.assignTablesWithHistory queueEntry tableIds input.staffUserId found.status)
  afterAssigning input totalPeopleAheadAtJoin tableIds persisted

structure SkipPartyInput where
  restaurantId : String
  queueEntryId : String
  staffUserId : String
  reason : String
  skipPositions : Option Nat

structure SkipPartyOutput where
  queueEntryId : Uuid
  restaurantId : Uuid
  status : QueueStatus
  reason : String
  position : Option Nat

def shiftedReason (reason : String) (skipPositions : Nat) : String :=
  reason ++ " (shifted by " ++ toString skipPositions ++ " positions)"

def targetIndex (activeEntries : List QueueEntry) (currentIndex skipPositions : Nat) : Nat :=
  min (currentIndex + skipPositions) (activeEntries.length - 1)

/-- The two splices: take the entry out, put it back further down. -/
def splice (activeEntries : List QueueEntry) (currentIndex target : Nat) : List QueueEntry :=
  match activeEntries[currentIndex]? with
  | some skippedEntry => (activeEntries.eraseIdx currentIndex).insertIdx target skippedEntry
  | none => activeEntries

def reorderUpdates (activeEntries : List QueueEntry) : List PositionUpdate :=
  activeEntries.mapIdx fun idx entry => ⟨entry.id, idx + 1, none⟩

def notifySkipped (input : SkipPartyInput) (queueEntry : QueueEntry) (broadcastReason : String)
    (position : Option Nat) : UseCase SkipPartyOutput := do
  let payload := Payload.skipped queueEntry.id queueEntry.restaurantId queueEntry.status
    broadcastReason position
  ask (.broadcastToRestaurant input.restaurantId .queueEntrySkipped payload)
  ask (.sendToTicket input.queueEntryId .queueEntrySkipped payload)
  return ⟨queueEntry.id, queueEntry.restaurantId, queueEntry.status, input.reason, position⟩

/-- The reorder branch, from the moment the entry was found in the line. -/
def reorder (input : SkipPartyInput) (found : QueueEntry) (skipPositions : Nat)
    (activeEntries : List QueueEntry) (currentIndex : Nat) : UseCase SkipPartyOutput := do
  let target := targetIndex activeEntries currentIndex skipPositions
  let queueEntry ← updatePosition found (target + 1)
  batchUpdatePositions (reorderUpdates (splice activeEntries currentIndex target))
  let _ ← ask (.updateStatusWithHistory ⟨queueEntry, found.status, input.staffUserId,
    some (shiftedReason input.reason skipPositions), none⟩)
  let _ ← recalculate input.restaurantId
  notifySkipped input queueEntry (shiftedReason input.reason skipPositions) (some (target + 1))

def skipOut (input : SkipPartyInput) (found : QueueEntry) : UseCase SkipPartyOutput := do
  let queueEntry ← skip found
  let persisted ← ask (.updateStatusWithHistory ⟨queueEntry, found.status, input.staffUserId,
    some input.reason, none⟩)
  let _ ← closeRanks input.queueEntryId input.restaurantId
  notifySkipped input persisted input.reason none

def skipParty (input : SkipPartyInput) : UseCase SkipPartyOutput := do
  let found ← findOwned input.restaurantId input.queueEntryId
  requireWaiting input.queueEntryId found
  match input.skipPositions with
  | some (k + 1) =>
    let activeEntries : List QueueEntry ← ask (.findActiveEntries input.restaurantId)
    match activeEntries.findIdx? (·.id.text = input.queueEntryId) with
    | some currentIndex => reorder input found (k + 1) activeEntries currentIndex
    | none => skipOut input found
  | _ => skipOut input found

structure CancelQueueEntryInput where
  restaurantId : String
  queueEntryId : String
  staffUserId : String
  reason : String
  notes : Option String

structure CancelQueueEntryOutput where
  queueEntryId : Uuid
  restaurantId : Uuid
  status : QueueStatus
  reason : String
  notes : Option String
  cancelledAt : Time

def isNoShow (reason : String) : Bool := toUpperCase (trim reason) == "NO_SHOW"

def targetStatus (reason : String) : QueueStatus := if isNoShow reason then .noShow else .cancelled

def releasePayload (partySize : Nat) (activeAssignments : List TableAssignment) :
    List ReleaseTableItem :=
  activeAssignments.zipWith (fun a n => ⟨a.tableId, n⟩)
    (distribute partySize activeAssignments.length)

def releaseAssigned (input : CancelQueueEntryInput) (partySize : Nat) : UseCase Unit := do
  let activeAssignments : List TableAssignment ← ask (.findActiveTableAssignments input.queueEntryId)
  if !activeAssignments.isEmpty then
    ask (.releaseTables input.restaurantId (releasePayload partySize activeAssignments))
    ask (.releaseTableAssignments input.queueEntryId)

def notifyCancelled (input : CancelQueueEntryInput) (persisted : QueueEntry) :
    UseCase CancelQueueEntryOutput := do
  let cancelledAt ← orNow persisted.cancelledAt
  let event := if isNoShow input.reason then ServerEvent.queueEntryNoShow else .queueEntryCancelled
  let payload := Payload.cancelled persisted.id persisted.restaurantId persisted.status input.reason
    input.notes cancelledAt
  ask (.broadcastToRestaurant input.restaurantId event payload)
  ask (.sendToTicket input.queueEntryId event payload)
  if isNoShow input.reason then
    ask (.sendToTicket input.queueEntryId .queueEntryCancelled payload)
  return ⟨persisted.id, persisted.restaurantId, persisted.status, input.reason, input.notes, cancelledAt⟩

def cancelQueueEntry (input : CancelQueueEntryInput) : UseCase CancelQueueEntryOutput := do
  let found ← findOwned input.restaurantId input.queueEntryId
  let queueEntry ← cancel found (targetStatus input.reason)
  releaseAssigned input queueEntry.partySize
  let persisted ← ask (.updateStatusWithHistory ⟨queueEntry, found.status, input.staffUserId,
    some input.reason, input.notes⟩)
  let _ ← closeRanks input.queueEntryId input.restaurantId
  notifyCancelled input persisted

/-- The deep link base is the service's configuration, not part of the request. -/
structure RingCustomerInput where
  restaurantId : String
  queueEntryId : String
  staffUserId : String
  ticketDeepLinkBaseUrl : Option String

structure RingCustomerOutput where
  queueEntryId : Uuid
  restaurantId : Uuid
  guestName : String
  ringCount : Nat
  lastRingedAt : Time
  notificationDispatched : Bool

def dropTrailingSlashes (s : String) : String :=
  String.ofList ((s.toList.reverse.dropWhile (· = '/')).reverse)

def deepLink (base : Option String) (id : Uuid) : Option String :=
  ((base.map dropTrailingSlashes).filter (· ≠ "")).map (· ++ "/" ++ id.text)

def dispatch (entry : QueueEntry) (link : Option String) : UseCase Bool :=
  match entry.fid with
  | some fid =>
    if fid = "" then pure false
    else tryCatch
      (do
        ask (.addJob ⟨fid, entry.guestName, link, entry.id, entry.restaurantId⟩)
        return true)
      fun _ => pure false
  | none => pure false

def notifyRung (entry : QueueEntry) (link : Option String) : UseCase RingCustomerOutput := do
  let notificationDispatched ← dispatch entry link
  tryCatch
    (ask (.sendToTicket entry.id.text .ticketCalled
      (.called entry.id entry.restaurantId entry.ringCount entry.lastRingedAt link)))
    fun _ => pure ()
  let lastRingedAt ← orNow entry.lastRingedAt
  return ⟨entry.id, entry.restaurantId, entry.guestName, entry.ringCount, lastRingedAt,
    notificationDispatched⟩

def ringCustomer (input : RingCustomerInput) : UseCase RingCustomerOutput := do
  let found ← findOwned input.restaurantId input.queueEntryId
  let entry ← ring found
  ask (.save entry)
  notifyRung entry (deepLink input.ticketDeepLinkBaseUrl entry.id)

inductive Operation
  | register (input : RegisterQueueInput)
  | seatParty (input : SeatPartyInput)
  | assignTable (input : AssignTablesInput)
  | skipParty (input : SkipPartyInput)
  | cancelQueueEntry (input : CancelQueueEntryInput)
  | ringCustomer (input : RingCustomerInput)

def Operation.restaurantId : Operation → String
  | .register input => input.restaurantId
  | .seatParty input => input.restaurantId
  | .assignTable input => input.restaurantId
  | .skipParty input => input.restaurantId
  | .cancelQueueEntry input => input.restaurantId
  | .ringCustomer input => input.restaurantId

/-- The ticket a staff operation is about; a registration makes its own. -/
def Operation.queueEntryId : Operation → Option String
  | .register _ => none
  | .seatParty input => some input.queueEntryId
  | .assignTable input => some input.queueEntryId
  | .skipParty input => some input.queueEntryId
  | .cancelQueueEntry input => some input.queueEntryId
  | .ringCustomer input => some input.queueEntryId

/-- The operation moves this ticket down its line instead of out of it. -/
def Operation.Shifts (op : Operation) (id : Uuid) : Prop :=
  match op with
  | .skipParty input => Uuid.ofText input.queueEntryId = id ∧ ∃ k, input.skipPositions = some (k + 1)
  | _ => False

inductive Outcome
  | registered (output : RegisterQueueOutput)
  | seated (output : SeatPartyOutput)
  | assigned (output : AssignTablesOutput)
  | skipped (output : SkipPartyOutput)
  | cancelled (output : CancelQueueEntryOutput)
  | rung (output : RingCustomerOutput)

def Operation.execute : Operation → UseCase Outcome
  | .register input => .registered <$> registerQueue input
  | .seatParty input => .seated <$> UseCases.seatParty input
  | .assignTable input => .assigned <$> UseCases.assignTable input
  | .skipParty input => .skipped <$> UseCases.skipParty input
  | .cancelQueueEntry input => .cancelled <$> UseCases.cancelQueueEntry input
  | .ringCustomer input => .rung <$> UseCases.ringCustomer input

/-- Use cases under way at the same time. -/
abbrev Underway (ι : Type) := Pool ι Call Answer QueueError Outcome World

abbrev Interleaving (ι : Type) := Schedule ι Call Answer QueueError Outcome World

def together {ι : Type} (ops : ι → Operation) (w : World) : Underway ι :=
  ⟨fun i => (ops i).execute, w⟩

end SpotQueue.UseCases
