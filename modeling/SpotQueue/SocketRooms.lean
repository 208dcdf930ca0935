import SpotQueue.Repository
import SpotQueue.StaffApi
import Mathlib.Data.Finset.Erase
import Mathlib.Data.Finset.Insert

namespace SpotQueue.SocketRooms

open SpotQueue.Entity SpotQueue.Repository SpotQueue.StaffApi

def restaurantRoom (restaurantId : String) : String := "restaurant:" ++ restaurantId

def restaurantQueueRoom (restaurantId : String) : String := "restaurant:" ++ restaurantId ++ ":queue"

def queueRoom (queueId : String) : String := "queue:" ++ queueId

def ticketRoom (ticketId : String) : String := "ticket:" ++ ticketId

def queueEntryRoom (queueEntryId : String) : String := "queue-entry:" ++ queueEntryId

def userRoom (userId : String) : String := "user:" ++ userId

/-- The rooms SocketBroadcaster.broadcastToRestaurant emits to. -/
def restaurantBroadcastRooms (restaurantId : String) : List String :=
  [restaurantRoom restaurantId, restaurantQueueRoom restaurantId]

/-- The rooms SocketBroadcaster.sendToTicket emits to. -/
def ticketBroadcastRooms (ticketId : String) : List String :=
  [ticketRoom ticketId, queueEntryRoom ticketId]

def STAFF_ROLE : String := "STAFF"

def RESTAURANT_OWNER_ROLE : String := "RESTAURANT_OWNER"

def ADMIN_ROLE : String := "ADMIN"

def CUSTOMER_ROLE : String := "CUSTOMER"

/-- A JSON value as far as the handlers look into it. -/
inductive JsValue
  | string (s : String)
  | array (values : List JsValue)
  | object (fields : List (String × JsValue))
  | other

/-- `data?.name` -/
def JsValue.property (data : JsValue) (name : String) : JsValue :=
  match data with
  | .object fields => ((fields.find? (·.1 = name)).map (·.2)).getD .other
  | _ => .other

/-- What passes `!value || typeof value !== 'string'`. -/
def JsValue.nonEmptyString : JsValue → Option String
  | .string s => truthy (some s)
  | _ => none

def getParamValue : JsValue → Option String
  | .string s => truthy (some (trim s))
  | .array (.string s :: _) => truthy (some (trim s))
  | _ => none

structure HandshakeHeaders where
  userId : HeaderValue
  role : HeaderValue
  restaurantId : HeaderValue
  ticketId : HeaderValue
  email : HeaderValue

structure HandshakeQuery where
  ticketId : JsValue
  restaurantId : JsValue

structure Handshake where
  headers : HandshakeHeaders
  query : HandshakeQuery

structure AuthenticatedSocketUser where
  userId : String
  role : String
  restaurantId : Option String
  ticketId : Option String
  email : Option String
deriving DecidableEq

def CREDENTIALS_REQUIRED : String := "Authentication failed: Credentials required"

def Handshake.role (handshake : Handshake) : String :=
  toUpperCase ((truthy (getHeaderValue handshake.headers.role)).getD CUSTOMER_ROLE)

def Handshake.trimmedHeaderTicketId (handshake : Handshake) : Option String :=
  (getHeaderValue handshake.headers.ticketId).map trim

def Handshake.trimmedHeaderRestaurantId (handshake : Handshake) : Option String :=
  (getHeaderValue handshake.headers.restaurantId).map trim

/-- The header, or else the query parameter. -/
def Handshake.requestTicketId (handshake : Handshake) : Option String :=
  truthy handshake.trimmedHeaderTicketId <|> getParamValue handshake.query.ticketId

/-- Staff and owners are bound to the header. -/
def Handshake.effectiveRestaurantId (handshake : Handshake) : Option String :=
  if handshake.role = STAFF_ROLE ∨ handshake.role = RESTAURANT_OWNER_ROLE then
    handshake.trimmedHeaderRestaurantId
  else truthy handshake.trimmedHeaderRestaurantId <|> getParamValue handshake.query.restaurantId

def socketAuthMiddleware (handshake : Handshake) : Except String AuthenticatedSocketUser :=
  match truthy (getHeaderValue handshake.headers.userId) with
  | none => .error CREDENTIALS_REQUIRED
  | some headerUserId => .ok
      { userId := headerUserId
        role := handshake.role
        restaurantId := handshake.effectiveRestaurantId
        ticketId := handshake.requestTicketId
        email := getHeaderValue handshake.headers.email }

def isAuthorizedRestaurantMember (user : AuthenticatedSocketUser) (requestedRestaurantId : String) :
    Bool :=
  user.role = ADMIN_ROLE ||
    ((user.role = STAFF_ROLE || user.role = RESTAURANT_OWNER_ROLE) &&
      user.restaurantId = some requestedRestaurantId)

/-- One connected socket. `awaiting` holds the tickets whose look-up is under way. -/
structure Socket where
  user : AuthenticatedSocketUser
  rooms : Finset String
  awaiting : List String

def Socket.join (socket : Socket) (room : String) : Socket :=
  { socket with rooms := insert room socket.rooms }

def Socket.leave (socket : Socket) (room : String) : Socket :=
  { socket with rooms := socket.rooms.erase room }

def joinTicketRoom (socket : Socket) : Option String → Socket
  | some ticketId => socket.join (ticketRoom ticketId)
  | none => socket

def joinRestaurantRooms (socket : Socket) : Option String → Socket
  | some restaurantId =>
    if isAuthorizedRestaurantMember socket.user restaurantId then
      socket.join (restaurantRoom restaurantId)
    else socket.join (queueRoom restaurantId)
  | none => socket

/-- The automatic joins. -/
def handleSocketConnection (user : AuthenticatedSocketUser) : Socket :=
  let socket : Socket := ⟨user, {userRoom user.userId}, []⟩
  joinRestaurantRooms (joinTicketRoom socket (truthy user.ticketId)) (truthy user.restaurantId)

structure RoomAckResponse where
  success : Bool
  room : Option String
  error : Option String
deriving DecidableEq

/-- What a handler answers: the event it emits, if any, and the acknowledgement. -/
structure Reply where
  event : Option String
  response : RoomAckResponse
deriving DecidableEq

def emitSuccess (event room : String) : Reply := ⟨some event, true, some room, none⟩

def emitError (error : String) (emitToSocket : Bool) : Reply :=
  ⟨if emitToSocket then some "error" else none, false, none, some error⟩

def RESTAURANT_ID_REQUIRED : String := "restaurantId is required"

def QUEUE_ID_REQUIRED : String := "queueId is required"

def TICKET_ID_REQUIRED : String := "ticketId is required"

def UNAUTHORIZED_RESTAURANT : String := "Unauthorized: Cannot access this restaurant queue"

def UNAUTHORIZED_QUEUE : String := "Unauthorized: Cannot access this queue"

def UNAUTHORIZED_TICKET : String := "Unauthorized: Cannot access this ticket"

inductive ClientEvent
  | joinRestaurant (data : JsValue)
  | leaveRestaurant (data : JsValue)
  | joinTicket (data : JsValue)
  | leaveTicket (data : JsValue)
  | joinQueue (data : JsValue)
  | leaveQueue (data : JsValue)

def joined (socket : Socket) (room : String) : Socket × Option Reply :=
  (socket.join room, some (emitSuccess "room:joined" room))

def left (socket : Socket) (room : String) : Socket × Option Reply :=
  (socket.leave room, some (emitSuccess "room:left" room))

def refused (socket : Socket) (error : String) (emitToSocket : Bool) : Socket × Option Reply :=
  (socket, some (emitError error emitToSocket))

/-- The three handlers that only leave a room. -/
def leaveHandler (socket : Socket) (data : JsValue) (field required : String)
    (room : String → String) : Socket × Option Reply :=
  match (data.property field).nonEmptyString with
  | none => refused socket required false
  | some id => left socket (room id)

def joinRestaurant (socket : Socket) (data : JsValue) : Socket × Option Reply :=
  match (data.property "restaurantId").nonEmptyString with
  | none => refused socket RESTAURANT_ID_REQUIRED true
  | some restaurantId =>
    if isAuthorizedRestaurantMember socket.user restaurantId then
      joined socket (restaurantRoom restaurantId)
    else refused socket UNAUTHORIZED_RESTAURANT true

/-- The handler up to its `await`; without a repository it has nothing to wait for. -/
def joinTicket (repositoryBound : Bool) (socket : Socket) (data : JsValue) : Socket × Option Reply :=
  match (data.property "ticketId").nonEmptyString with
  | none => refused socket TICKET_ID_REQUIRED true
  | some ticketId =>
    if socket.user.role = ADMIN_ROLE ∨
        socket.user.role = CUSTOMER_ROLE ∧ socket.user.ticketId = some ticketId then
      joined socket (ticketRoom ticketId)
    else if repositoryBound then ({ socket with awaiting := socket.awaiting ++ [ticketId] }, none)
    else refused socket UNAUTHORIZED_TICKET true

def joinQueue (socket : Socket) (data : JsValue) : Socket × Option Reply :=
  match (data.property "queueId").nonEmptyString with
  | none => refused socket QUEUE_ID_REQUIRED true
  | some queueId =>
    if socket.user.role = ADMIN_ROLE ∨ socket.user.role = CUSTOMER_ROLE ∨
        isAuthorizedRestaurantMember socket.user queueId then
      joined socket (queueRoom queueId)
    else refused socket UNAUTHORIZED_QUEUE true

def registerRoomHandlers (repositoryBound : Bool) (socket : Socket) :
    ClientEvent → Socket × Option Reply
  | .joinRestaurant data => joinRestaurant socket data
  | .leaveRestaurant data =>
    leaveHandler socket data "restaurantId" RESTAURANT_ID_REQUIRED restaurantRoom
  | .joinTicket data => joinTicket repositoryBound socket data
  | .leaveTicket data => leaveHandler socket data "ticketId" TICKET_ID_REQUIRED ticketRoom
  | .joinQueue data => joinQueue socket data
  | .leaveQueue data => leaveHandler socket data "queueId" QUEUE_ID_REQUIRED queueRoom

/-- What findById settles on. -/
abbrev TicketAnswer := Except Unit (Option QueueEntry)

/-- Whose ticket the look-up found: the restaurant's, the customer's own, or neither. -/
inductive Verdict
  | member | owner | unauthorized
deriving DecidableEq

def verifyTicket (user : AuthenticatedSocketUser) : TicketAnswer → Verdict
  | .ok (some ticket) =>
    if (user.role = STAFF_ROLE ∨ user.role = RESTAURANT_OWNER_ROLE) ∧
        truthy user.restaurantId = some ticket.restaurantId.text then .member
    else if user.role = CUSTOMER_ROLE ∧ user.userId ≠ "" ∧
        ticket.userId.map (·.text) = some user.userId then .owner
    else .unauthorized
  | _ => .unauthorized

/-- The rest of the JOIN_TICKET handler, once the look-up has settled. -/
def answerTicket (socket : Socket) (ticketId : String) (answer : TicketAnswer) :
    Socket × Option Reply :=
  let settled := { socket with awaiting := socket.awaiting.erase ticketId }
  match verifyTicket socket.user answer with
  | .member => joined settled (ticketRoom ticketId)
  | .owner =>
    joined { settled with user := { settled.user with ticketId := some ticketId } } (ticketRoom ticketId)
  | .unauthorized => refused settled UNAUTHORIZED_TICKET true

inductive SocketEvent
  | client (event : ClientEvent)
  | answered (ticketId : String) (answer : TicketAnswer)

/-- Client events are handled as they come; the look-ups settle in any order. -/
inductive Step (repositoryBound : Bool) (answers : String → TicketAnswer → Prop) :
    Socket → SocketEvent → Socket → Prop
  | client {socket : Socket} (event : ClientEvent) : Step repositoryBound answers socket
      (.client event) (registerRoomHandlers repositoryBound socket event).1
  | answered {socket : Socket} {ticketId : String} {answer : TicketAnswer}
      (hawaiting : ticketId ∈ socket.awaiting) (hanswer : answers ticketId answer) :
      Step repositoryBound answers socket (.answered ticketId answer)
        (answerTicket socket ticketId answer).1

/-- A look-up in a store that does not change: it fails or finds what is stored. -/
def LooksUp (s : Store) (ticketId : String) (answer : TicketAnswer) : Prop :=
  answer = .error () ∨ answer = .ok (s.findById ticketId)

end SpotQueue.SocketRooms
