import SpotQueue.TableBodies

namespace SpotQueue.GuestBodies

open SpotQueue.Entity SpotQueue.StaffApi SpotQueue.TableBodies
open SpotQueue.NumberText (MAX_SAFE_INTEGER)

/-- The length of a string in the source: UTF-16 units. -/
def utf16Length (s : String) : Nat := (s.toList.map fun c => if c.val < 0x10000 then 1 else 2).sum

/-- `/^\+[1-9]\d{1,14}$/` -/
def E164_PHONE (s : String) : Bool :=
  match s.toList with
  | '+' :: first :: rest =>
    '1' ≤ first && first ≤ '9' && 1 ≤ rest.length && rest.length ≤ 14 && rest.all Char.isDigit
  | _ => false

def PARTY_SIZE_MIN : Nat := 1

def PARTY_SIZE_MAX : Nat := 20

def GUEST_NAME_MAX : Nat := 100

def SPECIAL_NOTES_MAX : Nat := 500

def SKIP_REASON_REQUIRED : String := "A reason for skipping is required"

def REASON_TOO_LONG : String := "Reason cannot exceed 500 characters"

def INVALID_CANCEL_REASON : String :=
  "Invalid cancellation reason. Supported reasons: NO_SHOW, GUEST_CANCELLED, WALK_OUT, OTHER"

/-- The texts zod has for checks that are given none. -/
structure ZodTexts extends Zod where
  tooLong : Nat → String
  expectedInteger : String
  unsafeInteger : Rat → String
  notPositive : String

structure Check (α : Type) where
  holds : α → Bool
  message : String

/-- None of these checks keeps the next from running. -/
def failed {α : Type} (checks : List (Check α)) (value : α) : List Issue :=
  (checks.filter fun check => !check.holds value).map fun check => ⟨[], check.message, true⟩

variable (zod : ZodTexts)

/-- `z.string().trim()` and the checks behind it. -/
def textIssues (checks : List (Check String)) : Option Json → List Issue
  | some (.string value) => failed checks (trim value)
  | value => [⟨[], zod.invalidType "string" value, false⟩]

/-- `.optional()` -/
def optionalIssues (issues : Option Json → List Issue) : Option Json → List Issue
  | none => []
  | value => issues value

/-- `.optional().nullable()` -/
def nullableIssues (issues : Option Json → List Issue) : Option Json → List Issue
  | some .null => []
  | value => optionalIssues issues value

/-- `z.number().int()` and the bounds behind it. A value that is no integer is not
compared with them. -/
def integerIssues (typeMessage : Option Json → String) (integerMessage : String)
    (unsafeMessage : Rat → String) (checks : List (Check Int)) : Option Json → List Issue
  | some (.number value) =>
    if value.den ≠ 1 then [⟨[], integerMessage, false⟩]
    else
      (if MAX_SAFE_INTEGER < value.num.natAbs then [⟨[], unsafeMessage value, true⟩] else []) ++
        failed checks value.num
  | value => [⟨[], typeMessage value, false⟩]

def text : Option Json → String
  | some (.string value) => trim value
  | _ => ""

/-- The transform of the nullable fields: what is left empty is null. -/
def nonemptyText (value : Option Json) : Option String := truthy (some (text value))

def optionalText : Option Json → Option String
  | some (.string value) => some (trim value)
  | _ => none

def integer : Option Json → Nat
  | some (.number value) => value.num.toNat
  | _ => 0

def optionalInteger : Option Json → Option Nat
  | some (.number value) => some value.num.toNat
  | _ => none

def unrecognizedKeys (known : List String) (fields : List (String × Json)) : List Issue :=
  match (fields.map (·.1)).filter (· ∉ known) with
  | [] => []
  | keys => [⟨[], zod.unrecognizedKeys keys, false⟩]

def property (body : Option Json) (name : String) : Option Json := body.bind (·.property name)

/-- The issues of an object schema with its fields in order. -/
def objectIssues (fields : List (String × (Option Json → List Issue)))
    (others : List (String × Json) → List Issue) : Option Json → List Issue
  | some (.object values) =>
    (fields.flatMap fun (name, issues) =>
      within (.key name) (issues ((Json.object values).property name))) ++ others values
  | value => [⟨[], zod.invalidType "object" value, false⟩]

def guestNameChecks : List (Check String) :=
  [⟨fun value => 1 ≤ utf16Length value, "guestName is required and cannot be empty"⟩,
    ⟨fun value => utf16Length value ≤ GUEST_NAME_MAX, "guestName must not exceed 100 characters"⟩]

def guestPhoneChecks : List (Check String) :=
  [⟨E164_PHONE, "guestPhone must be a valid phone number in E.164 format (e.g., +15559876543)"⟩]

def partySizeChecks : List (Check Int) :=
  [⟨fun value => PARTY_SIZE_MIN ≤ value, "partySize must be between 1 and 20"⟩,
    ⟨fun value => value ≤ PARTY_SIZE_MAX, "partySize must be between 1 and 20"⟩]

def partySizeIssues : Option Json → List Issue :=
  integerIssues (fun _ => "partySize must be a valid number") "partySize must be an integer"
    (fun _ => "partySize must be an integer") partySizeChecks

def specialNotesChecks : List (Check String) :=
  [⟨fun value => utf16Length value ≤ SPECIAL_NOTES_MAX, "specialNotes must not exceed 500 characters"⟩]

structure JoinQueueBody where
  guestName : String
  guestPhone : String
  partySize : Nat
  specialNotes : Option String
  fid : Option String
deriving DecidableEq

def joinQueueIssues : Option Json → List Issue :=
  objectIssues zod
    [("guestName", textIssues zod guestNameChecks),
      ("guestPhone", textIssues zod guestPhoneChecks),
      ("partySize", partySizeIssues),
      ("specialNotes", nullableIssues (textIssues zod specialNotesChecks)),
      ("fid", nullableIssues (textIssues zod []))]
    fun _ => []

def joinQueueBodySchema (body : Option Json) : Except (List Issue) JoinQueueBody :=
  if joinQueueIssues zod body = [] then
    .ok
      { guestName := text (property body "guestName")
        guestPhone := text (property body "guestPhone")
        partySize := integer (property body "partySize")
        specialNotes := nonemptyText (property body "specialNotes")
        fid := nonemptyText (property body "fid") }
  else .error (joinQueueIssues zod body)

def registerWalkInIssues : Option Json → List Issue :=
  objectIssues zod
    [("guestName", textIssues zod guestNameChecks),
      ("guestPhone", textIssues zod guestPhoneChecks),
      ("partySize", partySizeIssues),
      ("specialNotes", optionalIssues (textIssues zod specialNotesChecks))]
    fun _ => []

def registerWalkInBodySchema (body : Option Json) : Except (List Issue) RegisterWalkInBody :=
  if registerWalkInIssues zod body = [] then
    .ok
      { guestName := text (property body "guestName")
        guestPhone := text (property body "guestPhone")
        partySize := integer (property body "partySize")
        specialNotes := optionalText (property body "specialNotes") }
  else .error (registerWalkInIssues zod body)

def skipReasonChecks : List (Check String) :=
  [⟨fun value => 1 ≤ utf16Length value, SKIP_REASON_REQUIRED⟩,
    ⟨fun value => utf16Length value ≤ 500, REASON_TOO_LONG⟩]

def skipPartyIssues : Option Json → List Issue :=
  objectIssues zod
    [("reason", textIssues zod skipReasonChecks),
      ("skipPositions", optionalIssues (integerIssues (zod.invalidType "number") zod.expectedInteger
        zod.unsafeInteger [⟨fun value => 0 < value, zod.notPositive⟩]))]
    (unrecognizedKeys zod ["reason", "skipPositions"])

def skipPartyBodySchema (body : Option Json) : Except (List Issue) SkipPartyBody :=
  if skipPartyIssues zod body = [] then
    .ok ⟨text (property body "reason"), optionalInteger (property body "skipPositions")⟩
  else .error (skipPartyIssues zod body)

def QueueCancelReason.all : List QueueCancelReason := [.noShow, .guestCancelled, .walkOut, .other]

/-- The reason a request names, in whatever case and with whatever spaces around it. -/
def cancelReason : Option Json → Option QueueCancelReason
  | some (.string value) => QueueCancelReason.all.find? (·.text = toUpperCase (trim value))
  | _ => none

def cancelReasonIssues (value : Option Json) : List Issue :=
  if (cancelReason value).isSome then [] else [⟨[], INVALID_CANCEL_REASON, false⟩]

def cancelQueueEntryIssues : Option Json → List Issue :=
  objectIssues zod
    [("reason", cancelReasonIssues),
      ("notes", optionalIssues
        (textIssues zod [⟨fun value => utf16Length value ≤ 500, zod.tooLong 500⟩]))]
    (unrecognizedKeys zod ["reason", "notes"])

def cancelQueueEntryBodySchema (body : Option Json) : Except (List Issue) CancelQueueEntryBody :=
  if cancelQueueEntryIssues zod body = [] then
    .ok ⟨(cancelReason (property body "reason")).getD .other, optionalText (property body "notes")⟩
  else .error (cancelQueueEntryIssues zod body)

end SpotQueue.GuestBodies
