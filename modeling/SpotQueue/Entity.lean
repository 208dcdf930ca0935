import SpotQueue.NumberText

namespace SpotQueue.Entity

open SpotQueue.NumberText

/-- Milliseconds since the epoch. -/
abbrev Time := Nat

def toLowerCase (s : String) : String := String.ofList (s.toList.map Char.toLower)

theorem toLowerCase_idem (s : String) : toLowerCase (toLowerCase s) = toLowerCase s := by
  have hc : Char.toLower ∘ Char.toLower = Char.toLower := by
    funext c
    rw [Function.comp_apply]
    delta Char.toLower
    grind
  simp [toLowerCase, hc]

/-- A value of a uuid column. A request may spell the letter digits in either
case; the column compares values and prints them in lower case. The other spellings
the column reads (without hyphens, in braces) are taken for values of their own, and
text that it rejects is not told apart. -/
structure Uuid where
  text : String
  lower : toLowerCase text = text
deriving DecidableEq

def Uuid.ofText (s : String) : Uuid := ⟨toLowerCase s, toLowerCase_idem s⟩

@[simp] theorem Uuid.ofText_text (u : Uuid) : Uuid.ofText u.text = u := by
  cases u with
  | mk text lower => simp [Uuid.ofText, lower]

theorem Uuid.text_injective {u v : Uuid} (h : u.text = v.text) : u = v := by
  rw [← u.ofText_text, ← v.ofText_text, h]

inductive QueueStatus
  | waiting | seated | skipped | cancelled | noShow
deriving DecidableEq

inductive RegistrationType
  | online | walkIn
deriving DecidableEq

inductive QueueError
  | tablesAvailable (availableCount : Nat)
  | restaurantNotAccepting
  | activeQueueEntryExists (phone : String)
  | activeUserQueueEntryExists
  | queueEntryNotFound (queueEntryId : String)
  | restaurantBlocked (restaurantId : String) (reason : Option String)
  | queueProSubscriptionRequired (restaurantId : String) (currentPlan : Option String)
  | queueEntryNotWaiting (queueEntryId : String) (currentStatus : QueueStatus)
  | insufficientTableCapacity (partySize totalCapacity : Nat)
  | cannotRingWalkIn (queueEntryId : String)
  | dependency
deriving DecidableEq

/-- One row of queue_entries. The mapper copies row and entity field by field,
so one record stands for both. -/
structure QueueEntry where
  id : Uuid
  restaurantId : Uuid
  userId : Option Uuid
  guestName : String
  phone : String
  queueNumber : String
  partySize : Nat
  specialNotes : Option String
  registrationType : RegistrationType
  position : Option Nat
  estimatedWaitMinutes : Option Nat
  estimatedWaitMinutesAtJoin : Option Nat
  status : QueueStatus
  ringCount : Nat
  lastRingedAt : Option Time
  fid : Option String
  joinedAt : Time
  seatedAt : Option Time
  cancelledAt : Option Time
  createdAt : Time
  updatedAt : Time
deriving DecidableEq

def isSpace (c : Char) : Bool :=
  c.isWhitespace || c == '\u000b' || c == '\u000c' || c == '\u00a0' || c == '\u1680' ||
    (0x2000 ≤ c.val && c.val ≤ 0x200a) || c == '\u2028' || c == '\u2029' || c == '\u202f' ||
    c == '\u205f' || c == '\u3000' || c == '\ufeff'

def trim (s : String) : String :=
  String.ofList (((s.toList.dropWhile isSpace).reverse.dropWhile isSpace).reverse)

/-- What is left of an optional string in a condition or in front of `||`. -/
def truthy (value : Option String) : Option String := value.filter (· ≠ "")

theorem truthy_some {o : Option String} {s : String} (h : truthy o = some s) : o = some s ∧ s ≠ "" := by
  obtain ⟨ho, hs⟩ := Option.filter_eq_some_iff.mp h
  exact ⟨ho, of_decide_eq_true hs⟩

/-- Upper case as far as a comparison with an ASCII word can see it. Besides the
ASCII letters these are all the characters whose upper case is ASCII. -/
def upperCaseOf : Char → List Char
  | 'ſ' => ['S']
  | 'ı' => ['I']
  | 'ß' => ['S', 'S']
  | 'ﬀ' => ['F', 'F']
  | 'ﬁ' => ['F', 'I']
  | 'ﬂ' => ['F', 'L']
  | 'ﬃ' => ['F', 'F', 'I']
  | 'ﬄ' => ['F', 'F', 'L']
  | 'ﬅ' | 'ﬆ' => ['S', 'T']
  | c => [c.toUpper]

def toUpperCase (s : String) : String := String.ofList (s.toList.flatMap upperCaseOf)

/-- `padStart(3, '0')` -/
def padThree (text : String) : String :=
  String.ofList (List.replicate (3 - text.length) '0' ++ text.toList)

def queuePrefix : RegistrationType → String
  | .online => "Q-"
  | .walkIn => "W-"

def generateQueueNumber (registrationType : RegistrationType) (sequenceNumber : Nat) : String :=
  queuePrefix registrationType ++ padThree (numberText sequenceNumber)

/-- The queue number after a count of rows. Counts are exact here, which those of the
language are up to `MAX_SAFE_INTEGER`; there it is what `generateQueueNumber` makes of them. -/
def countedQueueNumber (registrationType : RegistrationType) (sequenceNumber : Nat) : String :=
  queuePrefix registrationType ++ padThree (decimal sequenceNumber)

theorem generateQueueNumber_safe (t : RegistrationType) {n : Nat} (h : n ≤ MAX_SAFE_INTEGER) :
    generateQueueNumber t n = countedQueueNumber t n := by
  rw [generateQueueNumber, numberText_safe h, countedQueueNumber]

structure CreateQueueEntryProps where
  restaurantId : String
  userId : Option String
  guestName : String
  phone : String
  queueNumber : String
  partySize : Nat
  specialNotes : Option String
  registrationType : RegistrationType
  position : Nat
  estimatedWaitMinutes : Nat
  fid : Option String

def create (props : CreateQueueEntryProps) (id : Uuid) (now : Time) : QueueEntry where
  id := id
  restaurantId := .ofText props.restaurantId
  userId := props.userId.map .ofText
  guestName := trim props.guestName
  phone := trim props.phone
  queueNumber := props.queueNumber
  partySize := props.partySize
  specialNotes := (props.specialNotes.map trim).filter (· ≠ "")
  registrationType := props.registrationType
  position := some props.position
  estimatedWaitMinutes := some props.estimatedWaitMinutes
  estimatedWaitMinutesAtJoin := some props.estimatedWaitMinutes
  status := .waiting
  ringCount := 0
  lastRingedAt := none
  fid := props.fid
  joinedAt := now
  seatedAt := none
  cancelledAt := none
  createdAt := now
  updatedAt := now

/-- The fields `seat` writes once its guard has passed; each `new Date()` is a
reading of its own. -/
def QueueEntry.seated (e : QueueEntry) (seatedAt updatedAt : Time) : QueueEntry :=
  { e with status := .seated, seatedAt := some seatedAt, position := none, updatedAt := updatedAt }

def QueueEntry.skipped (e : QueueEntry) (updatedAt : Time) : QueueEntry :=
  { e with status := .skipped, position := none, updatedAt := updatedAt }

def QueueEntry.cancelled (e : QueueEntry) (status : QueueStatus) (cancelledAt updatedAt : Time) :
    QueueEntry :=
  { e with status := status, cancelledAt := some cancelledAt, position := none, updatedAt := updatedAt }

def QueueEntry.moved (e : QueueEntry) (newPosition : Nat) (updatedAt : Time) : QueueEntry :=
  { e with position := some newPosition, updatedAt := updatedAt }

def QueueEntry.rung (e : QueueEntry) (lastRingedAt updatedAt : Time) : QueueEntry :=
  { e with ringCount := e.ringCount + 1, lastRingedAt := some lastRingedAt, updatedAt := updatedAt }

def MS_PER_MINUTE : Nat := 60 * 1000

def DEFAULT_RESPONSE_TIMEOUT_MS : Nat := 120 * 1000

/-- Truncated subtraction is the `Math.max(0, ..)` of the source. -/
def QueueEntry.calculateWaitDurationMinutes (e : QueueEntry) (referenceTime : Time) : Nat :=
  let endTime := match e.status with
    | .seated => e.seatedAt.getD e.updatedAt
    | .waiting => referenceTime
    | _ => e.updatedAt
  (endTime - e.joinedAt) / MS_PER_MINUTE

def QueueEntry.calculateResponseDeadline (e : QueueEntry) : Option Time :=
  e.lastRingedAt.map (· + DEFAULT_RESPONSE_TIMEOUT_MS)

end SpotQueue.Entity
