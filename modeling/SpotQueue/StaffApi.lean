import SpotQueue.StaffQueue

namespace SpotQueue.StaffApi

open SpotQueue.Entity SpotQueue.Environment SpotQueue.UseCases SpotQueue.StaffQueue
open SpotQueue.Awaits.AsyncProgram

/-- `string | string[] | undefined` -/
inductive HeaderValue
  | undefined
  | single (value : String)
  | many (values : List String)

def getHeaderValue : HeaderValue → Option String
  | .undefined => none
  | .single value => some value
  | .many values => values.head?

def isHexDigit (c : Char) : Bool :=
  c.isDigit || ('a' ≤ c && c ≤ 'f') || ('A' ≤ c && c ≤ 'F')

/-- Nothing but hexadecimal digits and hyphens, as in every uuid. -/
def UuidText (s : String) : Prop := s ≠ "" ∧ ∀ c ∈ s.toList, isHexDigit c = true ∨ c = '-'

instance : DecidablePred UuidText := fun s =>
  decidable_of_iff (s ≠ "" ∧ s.toList.all fun c => isHexDigit c || c == '-')
    (by simp [UuidText])

/-- The headers the gateway sets and the staff middleware reads. -/
structure RequestHeaders where
  userId : HeaderValue
  role : HeaderValue
  email : HeaderValue
  restaurantId : HeaderValue

structure AuthenticatedStaff where
  userId : String
  restaurantId : String
  email : String
  role : String

structure FormattedValidationError where
  field : String
  message : String
deriving DecidableEq

structure HttpError where
  statusCode : Nat
  code : String
  message : String
  errors : List FormattedValidationError
deriving DecidableEq

def gatewayUnauthorized : HttpError := ⟨401, "UNAUTHORIZED", "Unauthorized request from gateway", []⟩

def staffForbidden : HttpError := ⟨403, "FORBIDDEN", "Forbidden: Staff access required", []⟩

def restaurantAccessForbidden : HttpError :=
  ⟨403, "FORBIDDEN", "Forbidden: You do not have access to this restaurant", []⟩

def invalidParameters (errors : List FormattedValidationError) : HttpError :=
  ⟨400, "INVALID_PARAMETERS", "Invalid request parameters", errors⟩

/-- The header as the middleware compares it. -/
def RequestHeaders.trimmedRestaurantId (headers : RequestHeaders) : Option String :=
  (getHeaderValue headers.restaurantId).map trim

def RequestHeaders.normalizedRole (headers : RequestHeaders) : Option String :=
  (getHeaderValue headers.role).map toLowerCase

def staffAuthMiddleware (headers : RequestHeaders) (param : HeaderValue) :
    Except HttpError AuthenticatedStaff :=
  match truthy (getHeaderValue headers.userId) with
  | none => .error gatewayUnauthorized
  | some userId =>
    if headers.normalizedRole ≠ some "staff" ∧ headers.normalizedRole ≠ some "admin" then
      .error staffForbidden
    else
      let paramRestaurantId := (getHeaderValue param).map trim
      match truthy headers.trimmedRestaurantId with
      | none => .error restaurantAccessForbidden
      | some restaurantId =>
        if ∃ p ∈ truthy paramRestaurantId, p ≠ restaurantId then .error restaurantAccessForbidden
        else .ok ⟨userId, restaurantId, (truthy (getHeaderValue headers.email)).getD "",
          (truthy (getHeaderValue headers.role)).getD "STAFF"⟩

structure GetStaffQueueQuery where
  status : Option QueueStatus
  partySizeBucket : Option PartySizeBucket

structure RegisterWalkInBody where
  guestName : String
  guestPhone : String
  partySize : Nat
  specialNotes : Option String

structure AssignTablesBody where
  tables : List AssignTableItem
  counts_pos : ∀ t ∈ tables, 0 < t.count

structure SeatPartyBody where
  tableIds : List String

structure SkipPartyBody where
  reason : String
  skipPositions : Option Nat

inductive QueueCancelReason
  | noShow | guestCancelled | walkOut | other
deriving DecidableEq

def QueueCancelReason.text : QueueCancelReason → String
  | .noShow => "NO_SHOW"
  | .guestCancelled => "GUEST_CANCELLED"
  | .walkOut => "WALK_OUT"
  | .other => "OTHER"

structure CancelQueueEntryBody where
  reason : QueueCancelReason
  notes : Option String

/-- A request as the staff router tells them apart: the path parameters as they
came, the query or body as its schema has let it through. -/
inductive StaffRoute
  | getLiveQueue (restaurantId : String) (query : GetStaffQueueQuery)
  | registerWalkIn (restaurantId : String) (body : RegisterWalkInBody)
  | assignTables (queueEntryId : String) (body : AssignTablesBody)
  | ringCustomer (queueEntryId : String)
  | seatParty (restaurantId queueEntryId : String) (body : SeatPartyBody)
  | skipParty (restaurantId queueEntryId : String) (body : SkipPartyBody)
  | cancelQueueEntry (restaurantId queueEntryId : String) (body : CancelQueueEntryBody)

structure StaffRequest where
  headers : RequestHeaders
  route : StaffRoute

def StaffRoute.paramRestaurantId : StaffRoute → Option String
  | .getLiveQueue restaurantId _ | .registerWalkIn restaurantId _ | .seatParty restaurantId _ _
  | .skipParty restaurantId _ _ | .cancelQueueEntry restaurantId _ _ => some restaurantId
  | .assignTables _ _ | .ringCustomer _ => none

def INVALID_RESTAURANT_ID_UUID : String := "restaurantId must be a valid UUID"

def INVALID_QUEUE_ENTRY_ID_UUID : String := "queueEntryId must be a valid UUID"

section validation

variable (isUuid : String → Bool)

/-- One uuid field of a params schema. -/
def uuidField (field message value : String) : List FormattedValidationError :=
  if isUuid value then [] else [⟨field, message⟩]

/-- The issues of the route's params schema. -/
def paramsIssues : StaffRoute → List FormattedValidationError
  | .getLiveQueue restaurantId _ =>
    uuidField isUuid "restaurantId" INVALID_RESTAURANT_ID_UUID restaurantId
  | .registerWalkIn restaurantId _ =>
    uuidField isUuid "restaurantId" "Invalid restaurant ID format" restaurantId
  | .assignTables queueEntryId _ | .ringCustomer queueEntryId =>
    uuidField isUuid "queueEntryId" "Invalid queue entry ID format" queueEntryId
  | .seatParty restaurantId queueEntryId _ | .skipParty restaurantId queueEntryId _
  | .cancelQueueEntry restaurantId queueEntryId _ =>
    uuidField isUuid "restaurantId" INVALID_RESTAURANT_ID_UUID restaurantId ++
      uuidField isUuid "queueEntryId" INVALID_QUEUE_ENTRY_ID_UUID queueEntryId

def validateRequestParams (route : StaffRoute) : Except HttpError Unit :=
  if paramsIssues isUuid route = [] then .ok ()
  else .error (invalidParameters (paramsIssues isUuid route))

end validation

/-- What a controller hands a request to. -/
inductive Handler
  | getStaffQueue (input : GetStaffQueueInput)
  | operation (op : Operation)

/-- The two controllers. The route parameters win over the header where there are any. -/
def controller (ticketDeepLinkBaseUrl : Option String) (user : AuthenticatedStaff) :
    StaffRoute → Except HttpError Handler
  | .getLiveQueue restaurantId query =>
    .ok (.getStaffQueue ⟨restaurantId, query.status, query.partySizeBucket⟩)
  | .registerWalkIn restaurantId body =>
    if h : user.userId = "" then .error gatewayUnauthorized
    else .ok (.operation (.register
      { restaurantId := restaurantId
        userId := none
        staffUserId := some user.userId
        guestName := body.guestName
        guestPhone := body.guestPhone
        partySize := body.partySize
        specialNotes := body.specialNotes
        fid := none
        registrationType := some .walkIn
        userId_nonempty := nofun
        staffUserId_nonempty := by simp [h] }))
  | .assignTables queueEntryId body =>
    if user.restaurantId = "" ∨ user.userId = "" then .error gatewayUnauthorized
    else .ok (.operation (.assignTable
      ⟨user.restaurantId, queueEntryId, user.userId, body.tables, body.counts_pos⟩))
  | .ringCustomer queueEntryId =>
    if user.restaurantId = "" ∨ user.userId = "" then .error gatewayUnauthorized
    else .ok (.operation (.ringCustomer
      ⟨user.restaurantId, queueEntryId, user.userId, ticketDeepLinkBaseUrl⟩))
  | .seatParty restaurantId queueEntryId body =>
    if user.userId = "" then .error gatewayUnauthorized
    else .ok (.operation (.seatParty ⟨restaurantId, queueEntryId, user.userId, body.tableIds⟩))
  | .skipParty restaurantId queueEntryId body =>
    if user.userId = "" then .error gatewayUnauthorized
    else .ok (.operation (.skipParty
      ⟨restaurantId, queueEntryId, user.userId, body.reason, body.skipPositions⟩))
  | .cancelQueueEntry restaurantId queueEntryId body =>
    if user.userId = "" then .error gatewayUnauthorized
    else .ok (.operation (.cancelQueueEntry
      ⟨restaurantId, queueEntryId, user.userId, body.reason.text, body.notes⟩))

def pathParameter : Option String → HeaderValue
  | none => .undefined
  | some value => .single value

/-- The chain of the router: authentication, parameters, controller. -/
def staffQueueRouter (isUuid : String → Bool) (ticketDeepLinkBaseUrl : Option String)
    (req : StaffRequest) : Except HttpError Handler := do
  let user ← staffAuthMiddleware req.headers (pathParameter req.route.paramRestaurantId)
  validateRequestParams isUuid req.route
  controller ticketDeepLinkBaseUrl user req.route

/-- One staff request, from the store it meets to the store it leaves. -/
inductive Serves (E : Env) (isUuid : String → Bool) (ticketDeepLinkBaseUrl : Option String)
    (req : StaffRequest) : World → World → Prop
  | refused {w : World} {error : HttpError}
      (hrouter : staffQueueRouter isUuid ticketDeepLinkBaseUrl req = .error error) :
      Serves E isUuid ticketDeepLinkBaseUrl req w w
  | queried {w w' : World} {input : GetStaffQueueInput} {x : Except QueueError GetStaffQueueOutput}
      (hrouter : staffQueueRouter isUuid ticketDeepLinkBaseUrl req = .ok (.getStaffQueue input))
      (h : Executes (StaffAnswers E) (getStaffQueue input) w x w') :
      Serves E isUuid ticketDeepLinkBaseUrl req w w'
  | operated {w w' : World} {op : Operation} {x : Except QueueError Outcome}
      (hrouter : staffQueueRouter isUuid ticketDeepLinkBaseUrl req = .ok (.operation op))
      (h : Executes E.Answers op.execute w x w') : Serves E isUuid ticketDeepLinkBaseUrl req w w'

end SpotQueue.StaffApi
