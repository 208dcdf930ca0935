import SpotQueue.Json
import SpotQueue.StaffApi

namespace SpotQueue.TableBodies

open SpotQueue.Entity SpotQueue.StaffApi
open SpotQueue.NumberText (MAX_SAFE_INTEGER)

def INVALID_TABLE_ID_UUID : String := "tableId must be a valid UUID"

def TABLE_IDS_REQUIRED : String := "tableIds array must contain at least one valid table UUID"

def DUPLICATE_TABLE_ID : String := "Duplicate tableId detected in assignment list"

inductive PathItem
  | key (name : String)
  | index (i : Nat)
deriving DecidableEq

/-- An issue that does not continue keeps the later checks of its value from running. -/
structure Issue where
  path : List PathItem
  message : String
  continues : Bool
deriving DecidableEq

/-- What the schemas take from zod: its uuid format and its own texts. -/
structure Zod where
  isUuid : String → Bool
  invalidType : String → Option Json → String
  unrecognizedKeys : List String → String

variable (zod : Zod)

def within (item : PathItem) (issues : List Issue) : List Issue :=
  issues.map fun issue => { issue with path := item :: issue.path }

/-- A uuid schema. Its type check and its format check have a text each. -/
def uuidIssues (typeMessage : Option Json → String) (formatMessage : String) : Option Json → List Issue
  | some (.string value) => if zod.isUuid value then [] else [⟨[], formatMessage, true⟩]
  | value => [⟨[], typeMessage value, false⟩]

/-- A nonempty array of items. -/
def arrayIssues (item : Json → List Issue) (minMessage : String) : Option Json → List Issue
  | some (.array items) =>
    (items.zipIdx.flatMap fun (value, index) => within (.index index) (item value)) ++
      if items.length < 1 then [⟨[], minMessage, true⟩] else []
  | value => [⟨[], zod.invalidType "array" value, false⟩]

def countIssues : Option Json → List Issue
  | some (.number value) =>
    if value.den ≠ 1 then [⟨[], "count must be an integer", false⟩]
    else
      (if MAX_SAFE_INTEGER < value.num.natAbs then [⟨[], "count must be an integer", true⟩] else []) ++
        if value.num ≤ 0 then [⟨[], "count must be a positive integer", true⟩] else []
  | _ => [⟨[], "count must be a valid number", false⟩]

def tableItemIssues : Json → List Issue
  | .object fields =>
    within (.key "tableId") (uuidIssues zod (zod.invalidType "string") "Invalid table ID format"
      ((Json.object fields).property "tableId")) ++
      within (.key "count") (countIssues ((Json.object fields).property "count"))
  | value => [⟨[], zod.invalidType "object" (some value), false⟩]

/-- The loop of both refinements over the ids it has not seen yet. -/
def duplicateIssues (path : Nat → List PathItem) (message : String) (seen : List String) :
    Nat → List String → List Issue
  | _, [] => []
  | index, tableId :: rest =>
    (if tableId ∈ seen then [⟨path index, message, true⟩] else []) ++
      duplicateIssues path message (tableId :: seen) (index + 1) rest

/-- The refinement runs on a value none of whose issues stops it. -/
def superRefine (issues : List Issue) (refinement : List Issue) : List Issue :=
  issues ++ if issues.all (·.continues) then refinement else []

def asText : Json → Option String
  | .string value => some value
  | _ => none

def items : Option Json → List Json
  | some (.array items) => items
  | _ => []

def seatPartyShape : Json → List Issue
  | .object fields =>
    within (.key "tableIds") (arrayIssues zod
      (fun value => uuidIssues zod (fun _ => INVALID_TABLE_ID_UUID) INVALID_TABLE_ID_UUID (some value))
      TABLE_IDS_REQUIRED ((Json.object fields).property "tableIds")) ++
      match (fields.map (·.1)).filter (· ≠ "tableIds") with
      | [] => []
      | keys => [⟨[], zod.unrecognizedKeys keys, false⟩]
  | value => [⟨[], zod.invalidType "object" (some value), false⟩]

def seatPartyTableIds (body : Json) : List String := (items (body.property "tableIds")).filterMap asText

def seatPartyIssues (body : Json) : List Issue :=
  superRefine (seatPartyShape zod body)
    (duplicateIssues (fun index => [.key "tableIds", .index index]) DUPLICATE_TABLE_ID [] 0
      (seatPartyTableIds body))

def seatPartyBodySchema (body : Json) : Except (List Issue) SeatPartyBody :=
  if seatPartyIssues zod body = [] then .ok ⟨seatPartyTableIds body⟩
  else .error (seatPartyIssues zod body)

/-- An item of the list as the request spells it. -/
structure TableItem where
  tableId : String
  count : Nat

def TableItem.ofJson (value : Json) : Option TableItem :=
  match value.property "tableId", value.property "count" with
  | some (.string tableId), some (.number count) => some ⟨tableId, count.num.toNat⟩
  | _, _ => none

def assignTablesShape : Json → List Issue
  | .object fields =>
    within (.key "tables") (arrayIssues zod (tableItemIssues zod) "At least one table must be assigned"
      ((Json.object fields).property "tables"))
  | value => [⟨[], zod.invalidType "object" (some value), false⟩]

def assignTablesTables (body : Json) : List TableItem :=
  (items (body.property "tables")).filterMap TableItem.ofJson

def assignTablesIssues (body : Json) : List Issue :=
  superRefine (assignTablesShape zod body)
    (duplicateIssues (fun index => [.key "tables", .index index, .key "tableId"])
      "Duplicate tableId detected in assignment list" [] 0
      ((assignTablesTables body).map (·.tableId)))

def assignTablesBodySchema (body : Json) : Except (List Issue) (List TableItem) :=
  if assignTablesIssues zod body = [] then .ok (assignTablesTables body)
  else .error (assignTablesIssues zod body)

end SpotQueue.TableBodies
