import SpotQueue.Line
import SpotQueue.UseCases

namespace SpotQueue.StaffQueue

open SpotQueue.Entity SpotQueue.Repository SpotQueue.Environment SpotQueue.UseCases
open SpotQueue.Awaits.AsyncProgram

inductive PartySizeBucket
  | all | small | medium | large
deriving DecidableEq

structure PartySizeRange where
  minPartySize : Option Nat
  maxPartySize : Option Nat
deriving DecidableEq

def PARTY_SIZE_RANGE_MAP : PartySizeBucket → PartySizeRange
  | .all => ⟨none, none⟩
  | .small => ⟨some 1, some 2⟩
  | .medium => ⟨some 3, some 4⟩
  | .large => ⟨some 5, none⟩

def INITIAL_WAITING_POSITION : Nat := 1

structure StaffQueueQueryFilters where
  status : Option QueueStatus
  minPartySize : Option Nat
  maxPartySize : Option Nat

/-- The where clause of the snapshot; what is undefined does not restrict. -/
def Selected (restaurantId : Uuid) (filters : StaffQueueQueryFilters) (e : QueueEntry) : Prop :=
  e.restaurantId = restaurantId ∧ (∀ status ∈ filters.status, e.status = status) ∧
    (∀ n ∈ filters.minPartySize, n ≤ e.partySize) ∧ ∀ n ∈ filters.maxPartySize, e.partySize ≤ n

instance (restaurantId : Uuid) (filters : StaffQueueQueryFilters) :
    DecidablePred (Selected restaurantId filters) := fun e => by unfold Selected; infer_instance

/-- orderBy joinedAt asc, id asc. -/
def SnapshotLE (a b : QueueEntry) : Prop :=
  a.joinedAt < b.joinedAt ∨ a.joinedAt = b.joinedAt ∧ a.id.text ≤ b.id.text

instance : DecidableRel SnapshotLE := fun a b => by unfold SnapshotLE; infer_instance

structure StaffQueueSnapshotItem where
  entry : QueueEntry
  assignedTableId : Option Uuid

structure StaffQueueSnapshotResult where
  totalWaiting : Nat
  entries : List StaffQueueSnapshotItem

/-- orderBy assignedAt desc, take 1, over the assignments still in force. -/
def LatestActiveTable (s : Store) (queueEntryId : Uuid) : Option Uuid → Prop
  | none => s.activeAssignments queueEntryId = []
  | some tableId => ∃ a ∈ s.activeAssignments queueEntryId, a.tableId = tableId ∧
      ∀ b ∈ s.activeAssignments queueEntryId, b.assignedAt ≤ a.assignedAt

/-- What getStaffQueueSnapshot may return. -/
structure IsSnapshot (s : Store) (restaurantId : Uuid) (filters : StaffQueueQueryFilters)
    (snapshot : StaffQueueSnapshotResult) : Prop where
  totalWaiting : snapshot.totalWaiting = (s.waiting restaurantId).length
  rows : (snapshot.entries.map (·.entry)).Perm (s.entries.filter (Selected restaurantId filters))
  sorted : (snapshot.entries.map (·.entry)).Pairwise SnapshotLE
  tables : ∀ item ∈ snapshot.entries, LatestActiveTable s item.entry.id item.assignedTableId

structure GetStaffQueueInput where
  restaurantId : String
  status : Option QueueStatus
  partySizeBucket : Option PartySizeBucket

structure StaffLiveQueueEntry where
  queueEntryId : Uuid
  queueNumber : String
  position : Option Nat
  guestName : String
  guestPhone : String
  partySize : Nat
  specialNotes : Option String
  registrationType : RegistrationType
  status : QueueStatus
  assignedTableId : Option Uuid
  joinedAt : Time
  ringCount : Nat
  lastRingAt : Option Time
  responseDeadline : Option Time
  waitDurationMinutes : Nat

structure GetStaffQueueOutput where
  restaurantId : String
  totalWaiting : Nat
  entries : List StaffLiveQueueEntry

def toLiveQueueEntry (item : StaffQueueSnapshotItem) (position : Option Nat) (now : Time) :
    StaffLiveQueueEntry where
  queueEntryId := item.entry.id
  queueNumber := item.entry.queueNumber
  position := position
  guestName := item.entry.guestName
  guestPhone := item.entry.phone
  partySize := item.entry.partySize
  specialNotes := item.entry.specialNotes
  registrationType := item.entry.registrationType
  status := item.entry.status
  assignedTableId := item.assignedTableId
  joinedAt := item.entry.joinedAt
  ringCount := item.entry.ringCount
  lastRingAt := item.entry.lastRingedAt
  responseDeadline := item.entry.calculateResponseDeadline
  waitDurationMinutes := item.entry.calculateWaitDurationMinutes now

/-- The callback of the map, with the counter it captures handed along. -/
def liveQueueEntries (now : Time) : Nat → List StaffQueueSnapshotItem → List StaffLiveQueueEntry
  | _, [] => []
  | waitingLinePosition, item :: rawEntries =>
    if item.entry.status = .waiting then
      toLiveQueueEntry item (some waitingLinePosition) now ::
        liveQueueEntries now (waitingLinePosition + 1) rawEntries
    else toLiveQueueEntry item none now :: liveQueueEntries now waitingLinePosition rawEntries

def mapToLiveQueueEntries (rawEntries : List StaffQueueSnapshotItem) (now : Time) :
    List StaffLiveQueueEntry :=
  liveQueueEntries now INITIAL_WAITING_POSITION rawEntries

inductive StaffCall
  | now
  | getStaffQueueSnapshot (restaurantId : String) (filters : StaffQueueQueryFilters)

@[reducible] def StaffAnswer : StaffCall → Type
  | .now => Time
  | .getStaffQueueSnapshot _ _ => StaffQueueSnapshotResult

abbrev askStaff (c : StaffCall) : Program StaffCall StaffAnswer QueueError (StaffAnswer c) := call c

def getStaffQueue (input : GetStaffQueueInput) :
    Program StaffCall StaffAnswer QueueError GetStaffQueueOutput := do
  let status := input.status.getD .waiting
  let range := (input.partySizeBucket.map PARTY_SIZE_RANGE_MAP).getD ⟨none, none⟩
  let snapshot ← askStaff (.getStaffQueueSnapshot input.restaurantId
    ⟨some status, range.minPartySize, range.maxPartySize⟩)
  let now ← askStaff .now
  pure ⟨input.restaurantId, snapshot.totalWaiting, mapToLiveQueueEntries snapshot.entries now⟩

/-- Both statements of the snapshot read one state; only the database can fail. -/
def StaffAnswers (E : Env) : Answers StaffCall StaffAnswer QueueError World := fun c w x w' =>
  ∃ t, E.tick w.clock t ∧ w' = w.at t ∧ match c with
    | .now => x = .ok t
    | .getStaffQueueSnapshot restaurantId filters => x = .error .dependency ∨
        ∃ snapshot, IsSnapshot w.store (.ofText restaurantId) filters snapshot ∧ x = .ok snapshot

variable {E : Env} {w w' : World}

/-- The filters a request turns into. -/
def GetStaffQueueInput.filters (input : GetStaffQueueInput) : StaffQueueQueryFilters :=
  let range := (input.partySizeBucket.map PARTY_SIZE_RANGE_MAP).getD ⟨none, none⟩
  ⟨some (input.status.getD .waiting), range.minPartySize, range.maxPartySize⟩

theorem getStaffQueue_executes {input : GetStaffQueueInput} {output : GetStaffQueueOutput} :
    Executes (StaffAnswers E) (getStaffQueue input) w (.ok output) w' ↔
      ∃ t, E.tick w.clock t ∧ E.tick t w'.clock ∧ w' = w.at w'.clock ∧
        ∃ snapshot, IsSnapshot w.store (.ofText input.restaurantId) input.filters snapshot ∧
          output = ⟨input.restaurantId, snapshot.totalWaiting,
            mapToLiveQueueEntries snapshot.entries w'.clock⟩ := by
  constructor
  · intro h
    obtain ⟨snapshot, u, ⟨t, ht, rfl, hsnapshot⟩, h⟩ | ⟨_, he, -⟩ := executes_call_bind h
    · obtain ⟨now, v, ⟨t', ht', rfl, hnow⟩, h⟩ | ⟨_, he, -⟩ := executes_call_bind h
      · obtain ⟨hout, rfl⟩ := executes_pure.mp h
        obtain hrejected | ⟨_, hsnapshot, hok⟩ := hsnapshot
        · cases hrejected
        cases hok
        cases hnow
        cases hout
        exact ⟨t, ht, ht', rfl, snapshot, hsnapshot, rfl⟩
      · cases he
    · cases he
  · rintro ⟨t, ht, ht', hw, snapshot, hsnapshot, rfl⟩
    refine executes_bind_ok (u := w.at t) (a := snapshot) ?_ ?_
    · exact executes_call.mpr ⟨t, ht, rfl, .inr ⟨snapshot, hsnapshot, rfl⟩⟩
    refine executes_bind_ok (u := w') (a := w'.clock) ?_ (executes_pure.mpr ⟨rfl, rfl⟩)
    exact executes_call.mpr ⟨w'.clock, ht', hw, rfl⟩

/-- Where every row is waiting the counter is the row number. -/
theorem liveQueueEntries_waiting {now : Time} {n : Nat} {items : List StaffQueueSnapshotItem}
    (h : ∀ item ∈ items, item.entry.status = .waiting) :
    liveQueueEntries now n items =
      items.mapIdx fun i item => toLiveQueueEntry item (some (n + i)) now := by
  induction items generalizing n with
  | nil => rfl
  | cons item items ih =>
    have hitem := h item List.mem_cons_self
    have htail := ih (n := n + 1) fun d hd => h d (List.mem_cons_of_mem item hd)
    rw [liveQueueEntries, if_pos hitem, htail, List.mapIdx_cons]
    simp only [Nat.add_zero, Nat.add_assoc, Nat.add_comm 1]

end SpotQueue.StaffQueue
