import SpotQueue.Entity
import Mathlib.Algebra.GroupWithZero.Nat
import Mathlib.Data.List.Sort

namespace SpotQueue.Repository

open SpotQueue.Entity

structure TableAssignment where
  queueEntryId : Uuid
  tableId : Uuid
  assignedBy : String
  assignedAt : Time
  releasedAt : Option Time
deriving DecidableEq

structure StatusHistory where
  queueEntryId : Uuid
  previousStatus : Option QueueStatus
  currentStatus : QueueStatus
  changedBy : Option String
  reason : Option String
  notes : Option String
  changedAt : Time
deriving DecidableEq

/-- The three tables, rows in the order they were inserted. The primary key of
queue_entries is part of the type; nothing in the service deletes a row. -/
structure Store where
  entries : List QueueEntry
  assignments : List TableAssignment
  history : List StatusHistory
  key : (entries.map (·.id)).Nodup
deriving DecidableEq

def Store.empty : Store := ⟨[], [], [], List.nodup_nil⟩

def Store.mapEntries (s : Store) (f : QueueEntry → QueueEntry) (hf : ∀ e, (f e).id = e.id) : Store :=
  { s with
    entries := s.entries.map f
    key := by simpa [Function.comp_def, hf] using s.key }

def Store.find (s : Store) (id : Uuid) : Option QueueEntry := s.entries.find? (·.id = id)

def Store.findById (s : Store) (id : String) : Option QueueEntry := s.find (.ofText id)

def Store.waiting (s : Store) (restaurantId : Uuid) : List QueueEntry :=
  s.entries.filter fun e => e.restaurantId = restaurantId ∧ e.status = .waiting

/-- orderBy position asc, joinedAt asc. PostgreSQL puts null positions last. -/
def LineLE (a b : QueueEntry) : Prop :=
  match a.position, b.position with
  | some p, some q => p < q ∨ p = q ∧ a.joinedAt ≤ b.joinedAt
  | some _, none => True
  | none, some _ => False
  | none, none => a.joinedAt ≤ b.joinedAt

instance : DecidableRel LineLE := fun a b => by
  rw [LineLE]
  cases a.position <;> cases b.position <;> infer_instance

/-- What findActiveEntries may return: rows that tie on both columns come in any order. -/
structure IsLine (s : Store) (restaurantId : Uuid) (l : List QueueEntry) : Prop where
  perm : l.Perm (s.waiting restaurantId)
  sorted : l.Pairwise LineLE

def Store.findActiveEntries (s : Store) (restaurantId : String) : List QueueEntry :=
  (s.waiting (.ofText restaurantId)).insertionSort LineLE

def Store.activeByPhone (s : Store) (restaurantId : Uuid) (phone : String) : List QueueEntry :=
  (s.waiting restaurantId).filter (·.phone = phone)

def Store.activeByUserId (s : Store) (userId : Uuid) : List QueueEntry :=
  s.entries.filter fun e => e.userId = some userId ∧ e.status = .waiting

def sumPartySize (l : List QueueEntry) : Nat := (l.map (·.partySize)).sum

structure RegistrationMetrics where
  queueDepth : Nat
  totalPeopleAhead : Nat
  countToday : Nat
deriving DecidableEq

def Store.getRegistrationMetrics (s : Store) (restaurantId : String) (startOfDay : Time) :
    RegistrationMetrics where
  queueDepth := (s.waiting (.ofText restaurantId)).length
  totalPeopleAhead := sumPartySize (s.waiting (.ofText restaurantId))
  countToday := s.entries.countP fun e =>
    e.restaurantId = .ofText restaurantId ∧ startOfDay ≤ e.createdAt

/-- The where clause of countPeopleAheadAtJoin; NOT negates the conjunction. -/
def AheadAtJoin (restaurantId : Uuid) (joinedAt : Time) (e : QueueEntry) : Prop :=
  e.restaurantId = restaurantId ∧ e.joinedAt < joinedAt ∧
    (∀ t ∈ e.seatedAt, joinedAt < t) ∧
    ¬ ((e.status = .cancelled ∨ e.status = .noShow ∨ e.status = .skipped) ∧ e.updatedAt ≤ joinedAt)

instance (restaurantId : Uuid) (joinedAt : Time) : DecidablePred (AheadAtJoin restaurantId joinedAt) :=
  fun e => by unfold AheadAtJoin; infer_instance

def Store.countPeopleAheadAtJoin (s : Store) (restaurantId : String) (joinedAt : Time) : Nat :=
  sumPartySize (s.entries.filter (AheadAtJoin (.ofText restaurantId) joinedAt))

def Store.insert (s : Store) (e : QueueEntry) (h : e.id ∉ s.entries.map (·.id)) : Store :=
  { s with
    entries := s.entries ++ [e]
    key := by
      rw [List.map_append]
      exact s.key.append (by simp) (by simpa [List.disjoint_comm] using h) }

def Store.log (s : Store) (h : StatusHistory) : Store := { s with history := s.history ++ [h] }

/-- createWithHistory as one transaction, alone on the database: both checks,
the insert and its primary key, the first history row. -/
def Store.createWithHistory (s : Store) (e : QueueEntry) (changedBy : String) (now : Time) :
    Except QueueError Store :=
  if ∃ u ∈ e.userId, s.activeByUserId u ≠ [] then .error .activeUserQueueEntryExists
  else if s.activeByPhone e.restaurantId e.phone ≠ [] then .error (.activeQueueEntryExists e.phone)
  else if h : e.id ∈ s.entries.map (·.id) then .error .dependency
  else .ok ((s.insert e h).log ⟨e.id, none, e.status, some changedBy, none, none, now⟩)

/-- `update where id` with every column in the data. -/
def Store.put (s : Store) (e : QueueEntry) : Store :=
  s.mapEntries (fun r => if r.id = e.id then e else r) fun r => by split <;> simp_all

def Store.assign (s : Store) (as : List TableAssignment) : Store :=
  { s with assignments := s.assignments ++ as }

def newAssignments (e : QueueEntry) (tableIds : List String) (assignedBy : String) (now : Time) :
    List TableAssignment :=
  tableIds.map fun tableId => ⟨e.id, .ofText tableId, assignedBy, e.seatedAt.getD now, none⟩

def Store.assignTablesWithHistory (s : Store) (e : QueueEntry) (tableIds : List String)
    (assignedBy : String) (previousStatus : QueueStatus) (now : Time) : Except QueueError Store :=
  if e.id ∈ s.entries.map (·.id) then
    .ok (((s.assign (newAssignments e tableIds assignedBy now)).put e).log
      ⟨e.id, some previousStatus, e.status, some assignedBy, none, none, now⟩)
  else .error .dependency

structure UpdateStatusWithHistoryParams where
  queueEntry : QueueEntry
  previousStatus : QueueStatus
  changedBy : String
  reason : Option String
  notes : Option String
deriving DecidableEq

def Store.updateStatusWithHistory (s : Store) (params : UpdateStatusWithHistoryParams) (now : Time) :
    Except QueueError Store :=
  if params.queueEntry.id ∈ s.entries.map (·.id) then
    .ok ((s.put params.queueEntry).log ⟨params.queueEntry.id, some params.previousStatus,
      params.queueEntry.status, some params.changedBy, params.reason, params.notes, now⟩)
  else .error .dependency

/-- The upsert of the base repository; its update half leaves createdAt alone. -/
def Store.save (s : Store) (e : QueueEntry) : Store :=
  if h : e.id ∈ s.entries.map (·.id) then
    s.mapEntries (fun r => if r.id = e.id then { e with createdAt := r.createdAt } else r)
      fun r => by split <;> simp_all
  else s.insert e h

def Store.activeAssignments (s : Store) (queueEntryId : Uuid) : List TableAssignment :=
  s.assignments.filter fun a => a.queueEntryId = queueEntryId ∧ a.releasedAt = none

def Store.releaseTableAssignments (s : Store) (queueEntryId : String) (now : Time) : Store :=
  { s with assignments := s.assignments.map fun a =>
      if a.queueEntryId = .ofText queueEntryId ∧ a.releasedAt = none then
        { a with releasedAt := some now } else a }

structure PositionUpdate where
  id : Uuid
  position : Nat
  estimatedWaitMinutes : Option Nat
deriving DecidableEq

/-- One `update` of the batch. Prisma stamps updatedAt itself when the data leaves it out. -/
def applyUpdate (now : Time) (e : QueueEntry) (u : PositionUpdate) : QueueEntry :=
  if e.id = u.id then
    { e with
      position := some u.position
      estimatedWaitMinutes := u.estimatedWaitMinutes <|> e.estimatedWaitMinutes
      updatedAt := now }
  else e

@[simp] theorem applyUpdate_id (now : Time) (e : QueueEntry) (u : PositionUpdate) :
    (applyUpdate now e u).id = e.id := by
  rw [applyUpdate]
  split <;> rfl

theorem foldl_applyUpdate_id (now : Time) (us : List PositionUpdate) (e : QueueEntry) :
    (us.foldl (applyUpdate now) e).id = e.id := by
  induction us generalizing e with
  | nil => rfl
  | cons u us ih => rw [List.foldl_cons, ih, applyUpdate_id]

def Store.updatePositions (s : Store) (us : List PositionUpdate) (now : Time) : Store :=
  s.mapEntries (us.foldl (applyUpdate now)) (foldl_applyUpdate_id now us)

/-- One transaction for the whole batch: an id without a row undoes all of it. -/
def Store.batchUpdatePositions (s : Store) (us : List PositionUpdate) (now : Time) :
    Except QueueError Store :=
  if ∀ u ∈ us, u.id ∈ s.entries.map (·.id) then .ok (s.updatePositions us now) else .error .dependency

section transactions

variable {s s' : Store} {e : QueueEntry} {us : List PositionUpdate} {now : Time} {err : QueueError}

theorem Store.createWithHistory_ok {changedBy : String} :
    s.createWithHistory e changedBy now = .ok s' ↔
      (∀ u ∈ e.userId, s.activeByUserId u = []) ∧ s.activeByPhone e.restaurantId e.phone = [] ∧
        ∃ h, s' = (s.insert e h).log ⟨e.id, none, e.status, some changedBy, none, none, now⟩ := by
  have hcheck : (∃ u ∈ e.userId, s.activeByUserId u ≠ []) ↔
      ¬ ∀ u ∈ e.userId, s.activeByUserId u = [] := by simp
  rw [Store.createWithHistory]
  constructor
  · intro h
    split at h
    · cases h
    split at h
    · cases h
    split at h
    · cases h
    rename_i huser hphone hfresh
    exact ⟨not_not.mp (mt hcheck.mpr huser), not_not.mp hphone, hfresh, (Except.ok.inj h).symm⟩
  · rintro ⟨huser, hphone, hfresh, rfl⟩
    rw [if_neg (hcheck.not.mpr (not_not.mpr huser)), if_neg (not_not.mpr hphone), dif_neg hfresh]

theorem Store.createWithHistory_error {changedBy : String}
    (h : s.createWithHistory e changedBy now = .error err) :
    err = .activeUserQueueEntryExists ∨ err = .activeQueueEntryExists e.phone ∨
      err = .dependency := by
  rw [Store.createWithHistory] at h
  split at h
  · exact .inl (Except.error.inj h).symm
  split at h
  · exact .inr (.inl (Except.error.inj h).symm)
  split at h
  · exact .inr (.inr (Except.error.inj h).symm)
  · cases h

/-- An update of rows that are there writes them, and is rejected without them. -/
theorem updated_ok {p : Prop} [Decidable p] :
    (if p then .ok s else .error err : Except QueueError Store) = .ok s' ↔ p ∧ s' = s := by
  split <;> simp_all [eq_comm]

theorem updated_error {p : Prop} [Decidable p] {err' : QueueError} :
    (if p then .ok s else .error err : Except QueueError Store) = .error err' ↔ ¬ p ∧ err' = err := by
  split <;> simp_all [eq_comm]

theorem Store.assignTablesWithHistory_ok {tableIds : List String} {assignedBy : String}
    {previousStatus : QueueStatus} :
    s.assignTablesWithHistory e tableIds assignedBy previousStatus now = .ok s' ↔
      e.id ∈ s.entries.map (·.id) ∧
        s' = ((s.assign (newAssignments e tableIds assignedBy now)).put e).log
          ⟨e.id, some previousStatus, e.status, some assignedBy, none, none, now⟩ :=
  updated_ok

theorem Store.assignTablesWithHistory_error {tableIds : List String} {assignedBy : String}
    {previousStatus : QueueStatus} :
    s.assignTablesWithHistory e tableIds assignedBy previousStatus now = .error err ↔
      e.id ∉ s.entries.map (·.id) ∧ err = .dependency :=
  updated_error

theorem Store.updateStatusWithHistory_ok {params : UpdateStatusWithHistoryParams} :
    s.updateStatusWithHistory params now = .ok s' ↔
      params.queueEntry.id ∈ s.entries.map (·.id) ∧
        s' = (s.put params.queueEntry).log ⟨params.queueEntry.id, some params.previousStatus,
          params.queueEntry.status, some params.changedBy, params.reason, params.notes, now⟩ :=
  updated_ok

theorem Store.updateStatusWithHistory_error {params : UpdateStatusWithHistoryParams} :
    s.updateStatusWithHistory params now = .error err ↔
      params.queueEntry.id ∉ s.entries.map (·.id) ∧ err = .dependency :=
  updated_error

theorem Store.batchUpdatePositions_ok :
    s.batchUpdatePositions us now = .ok s' ↔
      (∀ u ∈ us, u.id ∈ s.entries.map (·.id)) ∧ s' = s.updatePositions us now :=
  updated_ok

theorem Store.batchUpdatePositions_error :
    s.batchUpdatePositions us now = .error err ↔
      (¬ ∀ u ∈ us, u.id ∈ s.entries.map (·.id)) ∧ err = .dependency :=
  updated_error

end transactions

section fields

variable (s : Store) (e : QueueEntry) (h : StatusHistory) (us : List PositionUpdate) (now : Time)

@[simp] theorem Store.log_entries : (s.log h).entries = s.entries := rfl

@[simp] theorem Store.log_assignments : (s.log h).assignments = s.assignments := rfl

@[simp] theorem Store.log_history : (s.log h).history = s.history ++ [h] := rfl

@[simp] theorem Store.assign_entries (as : List TableAssignment) : (s.assign as).entries = s.entries :=
  rfl

@[simp] theorem Store.assign_assignments (as : List TableAssignment) :
    (s.assign as).assignments = s.assignments ++ as := rfl

@[simp] theorem Store.assign_history (as : List TableAssignment) :
    (s.assign as).history = s.history := rfl

@[simp] theorem Store.put_entries :
    (s.put e).entries = s.entries.map fun r => if r.id = e.id then e else r := rfl

@[simp] theorem Store.put_assignments : (s.put e).assignments = s.assignments := rfl

@[simp] theorem Store.put_history : (s.put e).history = s.history := rfl

@[simp] theorem Store.save_assignments : (s.save e).assignments = s.assignments := by
  rw [Store.save]
  split <;> rfl

@[simp] theorem Store.save_history : (s.save e).history = s.history := by
  rw [Store.save]
  split <;> rfl

@[simp] theorem Store.updatePositions_entries :
    (s.updatePositions us now).entries = s.entries.map (us.foldl (applyUpdate now)) := rfl

@[simp] theorem Store.updatePositions_assignments :
    (s.updatePositions us now).assignments = s.assignments := rfl

@[simp] theorem Store.updatePositions_history : (s.updatePositions us now).history = s.history := rfl

@[simp] theorem Store.insert_entries (hfresh : e.id ∉ s.entries.map (·.id)) :
    (s.insert e hfresh).entries = s.entries ++ [e] := rfl

@[simp] theorem Store.insert_assignments (hfresh : e.id ∉ s.entries.map (·.id)) :
    (s.insert e hfresh).assignments = s.assignments := rfl

@[simp] theorem Store.insert_history (hfresh : e.id ∉ s.entries.map (·.id)) :
    (s.insert e hfresh).history = s.history := rfl

end fields

end SpotQueue.Repository
