import SpotQueue.DistinctTables
import SpotQueue.GuestBodies
import SpotQueue.Queries

namespace SpotQueue.HttpApi

open SpotQueue.Entity SpotQueue.Environment SpotQueue.UseCases SpotQueue.Queries SpotQueue.StaffQueue
open SpotQueue.StaffApi SpotQueue.TableBodies SpotQueue.GuestBodies

inductive HttpMethod
  | get | head | post | patch | other
deriving DecidableEq

/-- A request as it reaches the application: its path in segments as the URL spells
them, its query parsed, its body parsed where it is JSON. -/
structure HttpRequest where
  method : HttpMethod
  path : List String
  headers : RequestHeaders
  query : Json
  body : Option Json

/-- What the application takes from its platform and its configuration. -/
structure Platform where
  zod : ZodTexts
  invalidOption : List String → Json → String
  coerceNumber : Option Json → Option Rat
  decodeURIComponent : String → Option String
  s2sAuth : HttpRequest → Option HttpError
  ticketDeepLinkBaseUrl : Option String

inductive PathPart
  | literal (text : String)
  | param

/-- The parameters of a path that has the form of a route. Literals compare in any case. -/
def matchPath : List PathPart → List String → Option (List String)
  | [], [] => some []
  | .literal text :: parts, segment :: path =>
    if toLowerCase segment = text then matchPath parts path else none
  | .param :: parts, segment :: path =>
    if segment = "" then none else (matchPath parts path).map (segment :: ·)
  | _, _ => none

/-- The rest of a path under the base a router is mounted at. -/
def underBase : List String → List String → Option (List String)
  | [], path => some path
  | text :: base, segment :: path => if toLowerCase segment = text then underBase base path else none
  | _ :: _, [] => none

structure Route (α : Type) where
  method : HttpMethod
  path : List PathPart
  target : List String → Option α

/-- A route for GET answers HEAD as well. -/
def Route.admits {α : Type} (route : Route α) (method : HttpMethod) : Bool :=
  method = route.method || method = .head && route.method = .get

def Route.params {α : Type} (route : Route α) (method : HttpMethod) (path : List String) :
    Option (List String) :=
  if route.admits method then matchPath route.path path else none

inductive Found (α : Type)
  | target (value : α)
  | malformed

/-- The first route that fits. Its parameters are decoded when it is matched, which
a bad escape defeats. -/
def findRoute {α : Type} (platform : Platform) (routes : List (Route α)) (method : HttpMethod)
    (path : List String) : Option (Found α) :=
  routes.findSome? fun route => (route.params method path).bind fun params =>
    match params.mapM platform.decodeURIComponent with
    | none => some .malformed
    | some params => (route.target params).map .target

inductive StaffTarget
  | getLiveQueue (restaurantId : String)
  | registerWalkIn (restaurantId : String)
  | assignTables (queueEntryId : String)
  | ringCustomer (queueEntryId : String)
  | seatParty (restaurantId queueEntryId : String)
  | skipParty (restaurantId queueEntryId : String)
  | cancelQueueEntry (restaurantId queueEntryId : String)

def ofOne {α : Type} (target : String → α) : List String → Option α
  | [a] => some (target a)
  | _ => none

def ofTwo {α : Type} (target : String → String → α) : List String → Option α
  | [a, b] => some (target a b)
  | _ => none

def staffQueueRoutes : List (Route StaffTarget) :=
  [⟨.get, [.literal "restaurants", .param], ofOne .getLiveQueue⟩,
    ⟨.post, [.literal "restaurants", .param, .literal "queue", .literal "walk-in"],
      ofOne .registerWalkIn⟩,
    ⟨.patch, [.literal "queue", .param, .literal "assign-tables"], ofOne .assignTables⟩,
    ⟨.post, [.literal "queue", .param, .literal "ring"], ofOne .ringCustomer⟩,
    ⟨.post, [.literal "restaurants", .param, .literal "queue", .param, .literal "seat"],
      ofTwo .seatParty⟩,
    ⟨.post, [.literal "restaurants", .param, .literal "queue", .param, .literal "skip"],
      ofTwo .skipParty⟩,
    ⟨.post, [.literal "restaurants", .param, .literal "queue", .param, .literal "cancel"],
      ofTwo .cancelQueueEntry⟩]

inductive CustomerTarget
  | getEta (restaurantId : String)
  | joinQueue (restaurantId : String)

def customerQueueRoutes : List (Route CustomerTarget) :=
  [⟨.get, [.param, .literal "eta"], ofOne .getEta⟩,
    ⟨.post, [.literal "restaurants", .param, .literal "queue", .literal "join"], ofOne .joinQueue⟩]

inductive InternalTarget
  | getActiveQueueByUser (restaurantId userId : String)
  | getCustomerQueueStatus (userId : String)

def internalQueueRoutes : List (Route InternalTarget) :=
  [⟨.get, [.literal "restaurants", .param, .literal "queue", .literal "users", .param, .literal "active"],
      ofTwo .getActiveQueueByUser⟩,
    ⟨.get, [.literal "queue-entries", .param, .literal "status"], ofOne .getCustomerQueueStatus⟩]

inductive Target
  | health
  | metrics
  | staff (target : StaffTarget)
  | customer (target : CustomerTarget)
  | internal (target : InternalTarget)

def healthRoutes : List (Route Target) :=
  [⟨.get, [.literal "health"], fun _ => some .health⟩, ⟨.get, [.literal "metrics"], fun _ => some .metrics⟩]

def Found.map {α β : Type} (f : α → β) : Found α → Found β
  | .target value => .target (f value)
  | .malformed => .malformed

def STAFF_BASE : List String := ["staff"]

def API_V1_STAFF_BASE : List String := ["api", "v1", "staff"]

def CUSTOMER_BASE : List String := ["customer"]

def INTERNAL_BASE : List String := ["api", "internal", "v1"]

section routing

variable (platform : Platform) (req : HttpRequest)

def mounted {α : Type} (base : List String) (routes : List (Route α)) (f : α → Target) :
    Option (Found Target) :=
  ((underBase base req.path).bind (findRoute platform routes req.method)).map (.map f)

/-- The routers in the order in which they are mounted. The service check is the only
one that stands in front of a whole router. -/
def router : Except HttpError (Option (Found Target)) :=
  match findRoute platform healthRoutes req.method req.path
      <|> mounted platform req STAFF_BASE staffQueueRoutes .staff
      <|> mounted platform req API_V1_STAFF_BASE staffQueueRoutes .staff
      <|> mounted platform req CUSTOMER_BASE customerQueueRoutes .customer with
  | some found => .ok (some found)
  | none =>
    match underBase INTERNAL_BASE req.path with
    | none => .ok none
    | some _ =>
      match platform.s2sAuth req with
      | some error => .error error
      | none => .ok (mounted platform req INTERNAL_BASE internalQueueRoutes .internal)

end routing

structure AuthenticatedCustomer where
  userId : String
  email : String
  role : String
  userId_nonempty : userId ≠ ""

def customerAuthMiddleware (headers : RequestHeaders) : Except HttpError AuthenticatedCustomer :=
  match h : truthy (getHeaderValue headers.userId) with
  | none => .error gatewayUnauthorized
  | some userId =>
    .ok ⟨userId, (truthy (getHeaderValue headers.email)).getD "",
      toUpperCase ((truthy (getHeaderValue headers.role)).getD "CUSTOMER"), (truthy_some h).2⟩

def PathItem.text : PathItem → String
  | .key name => name
  | .index i => toString i

def formatZodIssues (issues : List Issue) : List FormattedValidationError :=
  issues.map fun issue => ⟨".".intercalate (issue.path.map PathItem.text), issue.message⟩

def validationFailed (errors : List FormattedValidationError) : HttpError :=
  ⟨422, "VALIDATION_ERROR", "Validation failed", errors⟩

def validateRequestBody {α : Type} (result : Except (List Issue) α) : Except HttpError α :=
  result.mapError fun issues => validationFailed (formatZodIssues issues)

def validateRequestQuery {α : Type} (result : Except (List Issue) α) : Except HttpError α :=
  result.mapError fun issues => invalidParameters (formatZodIssues issues)

def validateParams (issues : List FormattedValidationError) : Except HttpError Unit :=
  if issues = [] then .ok () else .error (invalidParameters issues)

section schemas

variable (platform : Platform)

def enumIssues (options : List String) : Option Json → List Issue
  | some (.string value) =>
    if value ∈ options then [] else [⟨[], platform.invalidOption options (.string value), false⟩]
  | some value => [⟨[], platform.invalidOption options value, false⟩]
  | none => []

def enumValue {α : Type} (values : List (String × α)) : Option Json → Option α
  | some (.string value) => (values.find? (·.1 = value)).map (·.2)
  | _ => none

def queueStatuses : List (String × QueueStatus) :=
  [("WAITING", .waiting), ("SEATED", .seated), ("SKIPPED", .skipped), ("CANCELLED", .cancelled),
    ("NO_SHOW", .noShow)]

def partySizeBuckets : List (String × PartySizeBucket) :=
  [("all", .all), ("small", .small), ("medium", .medium), ("large", .large)]

def getStaffQueueQuerySchema (query : Json) : Except (List Issue) GetStaffQueueQuery :=
  let issues := objectIssues platform.zod
    [("status", enumIssues platform (queueStatuses.map (·.1))),
      ("partySizeBucket", enumIssues platform (partySizeBuckets.map (·.1)))] (fun _ => []) (some query)
  if issues = [] then
    .ok ⟨enumValue queueStatuses (query.property "status"),
      enumValue partySizeBuckets (query.property "partySizeBucket")⟩
  else .error issues

/-- `z.coerce.number()` in front of the checks a body's party size has as well. -/
def getEtaQuerySchema (query : Json) : Except (List Issue) Nat :=
  let partySize (value : Option Json) : Option Json := (platform.coerceNumber value).map .number
  let issues := objectIssues platform.zod [("partySize", fun value => partySizeIssues (partySize value))]
    (fun _ => []) (some query)
  if issues = [] then .ok (integer (partySize (query.property "partySize"))) else .error issues

def seatPartySchema (body : Option Json) : Except (List Issue) SeatPartyBody :=
  match body with
  | some body => seatPartyBodySchema platform.zod.toZod body
  | none => .error [⟨[], platform.zod.invalidType "object" none, false⟩]

def assignTablesBody {zod : Zod} {body : Json} (tables : List TableItem)
    (h : assignTablesBodySchema zod body = .ok tables) : AssignTablesBody where
  tables := tables.map fun table => ⟨table.tableId, table.count⟩
  counts_pos := by
    intro t ht
    obtain ⟨table, htable, rfl⟩ := List.mem_map.mp ht
    exact DistinctTables.counts_positive h table htable

def assignTablesSchema (body : Option Json) : Except (List Issue) AssignTablesBody :=
  match body with
  | some body =>
    match h : assignTablesBodySchema platform.zod.toZod body with
    | .ok tables => .ok (assignTablesBody tables h)
    | .error issues => .error issues
  | none => .error [⟨[], platform.zod.invalidType "object" none, false⟩]

end schemas

/-- What a controller hands a request to. -/
inductive Action
  | health
  | metrics
  | getStaffQueue (input : GetStaffQueueInput)
  | getEta (input : GetQueueEtaInput)
  | getActiveQueueByUser (input : GetActiveQueueByUserInput)
  | getCustomerQueueStatus (userId : String)
  | operation (op : Operation)

def Handler.action : Handler → Action
  | .getStaffQueue input => .getStaffQueue input
  | .operation op => .operation op

section chains

variable (platform : Platform) (req : HttpRequest)

def StaffTarget.paramRestaurantId : StaffTarget → Option String
  | .getLiveQueue restaurantId | .registerWalkIn restaurantId | .seatParty restaurantId _
  | .skipParty restaurantId _ | .cancelQueueEntry restaurantId _ => some restaurantId
  | .assignTables _ | .ringCustomer _ => none

def StaffTarget.paramsIssues : StaffTarget → List FormattedValidationError
  | .getLiveQueue restaurantId =>
    uuidField platform.zod.isUuid "restaurantId" INVALID_RESTAURANT_ID_UUID restaurantId
  | .registerWalkIn restaurantId =>
    uuidField platform.zod.isUuid "restaurantId" "Invalid restaurant ID format" restaurantId
  | .assignTables queueEntryId | .ringCustomer queueEntryId =>
    uuidField platform.zod.isUuid "queueEntryId" "Invalid queue entry ID format" queueEntryId
  | .seatParty restaurantId queueEntryId | .skipParty restaurantId queueEntryId
  | .cancelQueueEntry restaurantId queueEntryId =>
    uuidField platform.zod.isUuid "restaurantId" INVALID_RESTAURANT_ID_UUID restaurantId ++
      uuidField platform.zod.isUuid "queueEntryId" INVALID_QUEUE_ENTRY_ID_UUID queueEntryId

/-- The query or the body of a staff request, as its schema lets it through. -/
def StaffTarget.validated : StaffTarget → Except HttpError StaffRoute
  | .getLiveQueue restaurantId =>
    (validateRequestQuery (getStaffQueueQuerySchema platform req.query)).map (.getLiveQueue restaurantId)
  | .registerWalkIn restaurantId =>
    (validateRequestBody (registerWalkInBodySchema platform.zod req.body)).map
      (.registerWalkIn restaurantId)
  | .assignTables queueEntryId =>
    (validateRequestBody (assignTablesSchema platform req.body)).map (.assignTables queueEntryId)
  | .ringCustomer queueEntryId => .ok (.ringCustomer queueEntryId)
  | .seatParty restaurantId queueEntryId =>
    (validateRequestBody (seatPartySchema platform req.body)).map (.seatParty restaurantId queueEntryId)
  | .skipParty restaurantId queueEntryId =>
    (validateRequestBody (skipPartyBodySchema platform.zod req.body)).map
      (.skipParty restaurantId queueEntryId)
  | .cancelQueueEntry restaurantId queueEntryId =>
    (validateRequestBody (cancelQueueEntryBodySchema platform.zod req.body)).map
      (.cancelQueueEntry restaurantId queueEntryId)

def staffQueueChain (target : StaffTarget) : Except HttpError Handler := do
  let user ← staffAuthMiddleware req.headers (pathParameter target.paramRestaurantId)
  validateParams (target.paramsIssues platform)
  let route ← target.validated platform req
  controller platform.ticketDeepLinkBaseUrl user route

theorem noStaff_nonempty : (none : Option String) ≠ some "" := (Option.some_ne_none "").symm

def joinQueue (user : AuthenticatedCustomer) (restaurantId : String) (body : JoinQueueBody) :
    RegisterQueueInput where
  restaurantId := restaurantId
  userId := some user.userId
  staffUserId := none
  guestName := body.guestName
  guestPhone := body.guestPhone
  partySize := body.partySize
  specialNotes := body.specialNotes
  fid := body.fid
  registrationType := some .online
  userId_nonempty h := user.userId_nonempty (Option.some.inj h)
  staffUserId_nonempty := noStaff_nonempty

def CustomerTarget.restaurantId : CustomerTarget → String
  | .getEta restaurantId | .joinQueue restaurantId => restaurantId

def customerQueueChain (target : CustomerTarget) : Except HttpError Action := do
  let user ← customerAuthMiddleware req.headers
  validateParams
    (uuidField platform.zod.isUuid "restaurantId" "Invalid restaurant ID format" target.restaurantId)
  match target with
  | .getEta restaurantId =>
    let partySize ← validateRequestQuery (getEtaQuerySchema platform req.query)
    return .getEta ⟨restaurantId, partySize⟩
  | .joinQueue restaurantId =>
    let body ← validateRequestBody (joinQueueBodySchema platform.zod req.body)
    return .operation (.register (joinQueue user restaurantId body))

def INVALID_USER_ID_UUID : String := "userId must be a valid UUID"

def internalQueueChain : InternalTarget → Except HttpError Action
  | .getActiveQueueByUser restaurantId userId => do
    validateParams
      (uuidField platform.zod.isUuid "restaurantId" INVALID_RESTAURANT_ID_UUID restaurantId ++
        uuidField platform.zod.isUuid "userId" INVALID_USER_ID_UUID userId)
    return .getActiveQueueByUser ⟨restaurantId, userId⟩
  | .getCustomerQueueStatus userId => do
    validateParams (uuidField platform.zod.isUuid "userId" INVALID_USER_ID_UUID userId)
    return .getCustomerQueueStatus userId

def Target.chain : Target → Except HttpError Action
  | .health => .ok .health
  | .metrics => .ok .metrics
  | .staff target => (staffQueueChain platform req target).map Handler.action
  | .customer target => customerQueueChain platform req target
  | .internal target => internalQueueChain platform target

/-- Where a request ends that no controller sees. -/
inductive Refusal
  | middleware (error : HttpError)
  | notFound
  | malformed

/-- The application up to its controllers. -/
def app : Except Refusal Action :=
  match router platform req with
  | .error error => .error (.middleware error)
  | .ok none => .error .notFound
  | .ok (some .malformed) => .error .malformed
  | .ok (some (.target target)) => (target.chain platform req).mapError .middleware

end chains

end SpotQueue.HttpApi
