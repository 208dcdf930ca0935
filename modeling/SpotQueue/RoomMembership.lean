import SpotQueue.SocketRooms
import SpotQueue.Awaits.LabelledRun

namespace SpotQueue.RoomMembership

open SpotQueue.Entity SpotQueue.Repository SpotQueue.StaffApi SpotQueue.SocketRooms
open SpotQueue.Awaits.LabelledRun

variable {auth user : AuthenticatedSocketUser} {May : String → Prop} {bound : Bool}
  {answers : String → TicketAnswer → Prop} {socket socket' : Socket} {room : String}
  {handshake : Handshake} {tr : List (Transition Socket SocketEvent)}

theorem append_text_inj {p a b : String} (h : p ++ a = p ++ b) : a = b := by
  have hchars := congrArg String.toList h
  rw [String.toList_append, String.toList_append] at hchars
  exact String.toList_inj.mp (List.append_cancel_left hchars)

/-- Two rooms whose prefixes part at some character are two rooms. -/
theorem prefixes_differ {p q a b : String} (i : Nat) (hp : i < p.toList.length)
    (hq : i < q.toList.length) (hne : p.toList[i]? ≠ q.toList[i]?) : p ++ a ≠ q ++ b := by
  intro h
  have hchar := congrArg (fun s : String => s.toList[i]?) h
  simp only [String.toList_append] at hchar
  rw [List.getElem?_append_left hp, List.getElem?_append_left hq] at hchar
  exact hne hchar

/-- Why a socket may be in a room: the user's own, a ticket it may follow, any
queue display, a restaurant it is a member of. -/
inductive Granted (auth : AuthenticatedSocketUser) (May : String → Prop) : String → Prop
  | user : Granted auth May (userRoom auth.userId)
  | ticket {ticketId : String} (h : May ticketId) : Granted auth May (ticketRoom ticketId)
  | queue (queueId : String) : Granted auth May (queueRoom queueId)
  | restaurant {restaurantId : String} (h : isAuthorizedRestaurantMember auth restaurantId = true) :
      Granted auth May (restaurantRoom restaurantId)

/-- Only the ticket of the user ever changes, and every room has its reason. -/
structure Confined (auth : AuthenticatedSocketUser) (May : String → Prop) (socket : Socket) : Prop where
  identity : socket.user = { auth with ticketId := socket.user.ticketId }
  ticket : ∀ ticketId ∈ socket.user.ticketId, May ticketId
  rooms : ∀ room ∈ socket.rooms, Granted auth May room

/-- What the tickets that may be followed have to include. -/
structure Admits (auth : AuthenticatedSocketUser) (answers : String → TicketAnswer → Prop)
    (May : String → Prop) : Prop where
  handshake : ∀ ticketId ∈ auth.ticketId, May ticketId
  admin : auth.role = ADMIN_ROLE → ∀ ticketId, May ticketId
  verified : ∀ ticketId answer, answers ticketId answer →
    verifyTicket auth answer ≠ .unauthorized → May ticketId

theorem confined_join (h : Confined auth May socket) (hroom : Granted auth May room) :
    Confined auth May (socket.join room) := by
  refine ⟨h.identity, h.ticket, fun other hother => ?_⟩
  obtain rfl | hother := Finset.mem_insert.mp hother
  · exact hroom
  · exact h.rooms other hother

theorem confined_leave (h : Confined auth May socket) : Confined auth May (socket.leave room) :=
  ⟨h.identity, h.ticket, fun other hother => h.rooms other (Finset.mem_of_mem_erase hother)⟩

theorem confined_awaiting (h : Confined auth May socket) (awaiting : List String) :
    Confined auth May { socket with awaiting := awaiting } := ⟨h.identity, h.ticket, h.rooms⟩

theorem confined_role (h : Confined auth May socket) : socket.user.role = auth.role := by
  rw [h.identity]

theorem confined_member (h : Confined auth May socket) (restaurantId : String) :
    isAuthorizedRestaurantMember socket.user restaurantId =
      isAuthorizedRestaurantMember auth restaurantId := by
  rw [h.identity]
  rfl

theorem confined_verify (h : Confined auth May socket) (answer : TicketAnswer) :
    verifyTicket socket.user answer = verifyTicket auth answer := by
  rw [h.identity]
  rfl

theorem confined_connection (h : Admits auth answers May) :
    Confined auth May (handleSocketConnection auth) := by
  have hstart : Confined auth May ⟨auth, {userRoom auth.userId}, []⟩ := by
    refine ⟨rfl, h.handshake, fun room hroom => ?_⟩
    cases Finset.mem_singleton.mp hroom
    exact .user
  have hticket : Confined auth May
      (joinTicketRoom ⟨auth, {userRoom auth.userId}, []⟩ (truthy auth.ticketId)) := by
    unfold joinTicketRoom
    split
    · rename_i ticketId hticketId
      exact confined_join hstart (.ticket (h.handshake _ (truthy_some hticketId).1))
    · exact hstart
  change Confined auth May (joinRestaurantRooms _ _)
  unfold joinRestaurantRooms
  split
  · split
    · rename_i hmember
      rw [confined_member hticket] at hmember
      exact confined_join hticket (.restaurant hmember)
    · exact confined_join hticket (.queue _)
  · exact hticket

theorem confined_leaveHandler (h : Confined auth May socket) (data : JsValue) (field required : String)
    (room : String → String) :
    Confined auth May (leaveHandler socket data field required room).1 := by
  rw [leaveHandler]
  split
  · exact h
  · exact confined_leave h

theorem confined_joinRestaurant (h : Confined auth May socket) (data : JsValue) :
    Confined auth May (joinRestaurant socket data).1 := by
  rw [joinRestaurant]
  split
  · exact h
  · split
    · rename_i hmember
      rw [confined_member h] at hmember
      exact confined_join h (.restaurant hmember)
    · exact h

theorem confined_joinTicket (hadmits : Admits auth answers May) (h : Confined auth May socket)
    (data : JsValue) : Confined auth May (joinTicket bound socket data).1 := by
  rw [joinTicket]
  split
  · exact h
  · split
    · rename_i hauthorized
      refine confined_join h (.ticket ?_)
      obtain hadmin | ⟨-, hticket⟩ := hauthorized
      · exact hadmits.admin (confined_role h ▸ hadmin) _
      · exact h.ticket _ hticket
    · split
      · exact confined_awaiting h _
      · exact h

theorem confined_joinQueue (h : Confined auth May socket) (data : JsValue) :
    Confined auth May (joinQueue socket data).1 := by
  rw [joinQueue]
  split
  · exact h
  · split
    · exact confined_join h (.queue _)
    · exact h

theorem confined_answerTicket {ticketId : String} {answer : TicketAnswer}
    (hadmits : Admits auth answers May) (hanswer : answers ticketId answer)
    (h : Confined auth May socket) : Confined auth May (answerTicket socket ticketId answer).1 := by
  have hsettled := confined_awaiting h (socket.awaiting.erase ticketId)
  rw [answerTicket]
  rw [confined_verify h]
  split
  · rename_i hverdict
    have hmay := hadmits.verified _ _ hanswer (by rw [hverdict]; decide)
    exact confined_join hsettled (.ticket hmay)
  · rename_i hverdict
    have hmay := hadmits.verified _ _ hanswer (by rw [hverdict]; decide)
    refine confined_join ⟨?_, ?_, h.rooms⟩ (.ticket hmay)
    · change { socket.user with ticketId := some ticketId } = { auth with ticketId := some ticketId }
      rw [h.identity]
    · rintro _ ⟨⟩
      exact hmay
  · exact hsettled

theorem confined_step {event : SocketEvent} (hadmits : Admits auth answers May)
    (h : Confined auth May socket) (hstep : Step bound answers socket event socket') :
    Confined auth May socket' := by
  cases hstep with
  | client event =>
    cases event with
    | joinRestaurant data => exact confined_joinRestaurant h data
    | joinTicket data => exact confined_joinTicket hadmits h data
    | joinQueue data => exact confined_joinQueue h data
    | leaveRestaurant data | leaveTicket data | leaveQueue data =>
      exact confined_leaveHandler h data _ _ _
  | answered _ hanswer => exact confined_answerTicket hadmits hanswer h

theorem run_confined (hadmits : Admits auth answers May)
    (hrun : Run (Step bound answers) (handleSocketConnection auth) tr socket) :
    Confined auth May socket :=
  run_preserves (confined_connection hadmits) (fun h hstep => confined_step hadmits h hstep) hrun

theorem socketAuthMiddleware_ok (h : socketAuthMiddleware handshake = .ok auth) :
    truthy (getHeaderValue handshake.headers.userId) = some auth.userId ∧
      auth.role = handshake.role ∧ auth.restaurantId = handshake.effectiveRestaurantId ∧
      auth.ticketId = handshake.requestTicketId := by
  rw [socketAuthMiddleware] at h
  split at h
  · cases h
  · rename_i userId huserId
    cases h
    exact ⟨huserId, rfl, rfl, rfl⟩

theorem granted_restaurant {restaurantId : String} (h : Granted auth May room)
    (hroom : room ∈ restaurantBroadcastRooms restaurantId) :
    ∃ r, isAuthorizedRestaurantMember auth r = true ∧
      (r = restaurantId ∨ r = restaurantId ++ ":queue") := by
  obtain ⟨suffix, rfl, hsuffix⟩ : ∃ suffix, room = "restaurant:" ++ (restaurantId ++ suffix) ∧
      (suffix = "" ∨ suffix = ":queue") := by
    simp only [restaurantBroadcastRooms, List.mem_cons, List.not_mem_nil, or_false] at hroom
    obtain rfl | rfl := hroom
    · exact ⟨"", by rw [String.append_empty]; rfl, .inl rfl⟩
    · exact ⟨":queue", by rw [restaurantQueueRoom, String.append_assoc], .inr rfl⟩
  generalize hr : "restaurant:" ++ (restaurantId ++ suffix) = room at h
  cases h with
  | user => exact (prefixes_differ 0 (by decide) (by decide) (by decide) hr).elim
  | ticket => exact (prefixes_differ 0 (by decide) (by decide) (by decide) hr).elim
  | queue => exact (prefixes_differ 0 (by decide) (by decide) (by decide) hr).elim
  | @restaurant r hmember =>
    refine ⟨r, hmember, ?_⟩
    rw [← append_text_inj hr]
    obtain rfl | rfl := hsuffix
    · exact .inl String.append_empty
    · exact .inr rfl

theorem granted_ticket {ticketId : String} (h : Granted auth May room)
    (hroom : room ∈ ticketBroadcastRooms ticketId) : May ticketId := by
  simp only [ticketBroadcastRooms, List.mem_cons, List.not_mem_nil, or_false] at hroom
  obtain rfl | rfl := hroom
  · generalize hr : ticketRoom ticketId = room at h
    cases h with
    | user => exact (prefixes_differ 0 (by decide) (by decide) (by decide) hr).elim
    | queue => exact (prefixes_differ 0 (by decide) (by decide) (by decide) hr).elim
    | restaurant => exact (prefixes_differ 0 (by decide) (by decide) (by decide) hr).elim
    | ticket hmay => exact append_text_inj hr ▸ hmay
  · generalize hr : queueEntryRoom ticketId = room at h
    cases h with
    | user => exact (prefixes_differ 0 (by decide) (by decide) (by decide) hr).elim
    | queue => exact (prefixes_differ 5 (by decide) (by decide) (by decide) hr).elim
    | restaurant => exact (prefixes_differ 0 (by decide) (by decide) (by decide) hr).elim
    | ticket => exact (prefixes_differ 0 (by decide) (by decide) (by decide) hr).elim

theorem member_role {restaurantId : String} (h : isAuthorizedRestaurantMember auth restaurantId = true) :
    auth.role = ADMIN_ROLE ∨
      (auth.role = STAFF_ROLE ∨ auth.role = RESTAURANT_OWNER_ROLE) ∧
        auth.restaurantId = some restaurantId := by
  simpa [isAuthorizedRestaurantMember] using h

/-- A socket hears what is broadcast to a restaurant only as an administrator or
as staff or owner of that very restaurant. -/
theorem restaurant_rooms_confined {restaurantId : String}
    (hauth : socketAuthMiddleware handshake = .ok auth)
    (huuid : ∀ r ∈ handshake.trimmedHeaderRestaurantId, UuidText r)
    (hrun : Run (Step bound answers) (handleSocketConnection auth) tr socket)
    (hroom : room ∈ restaurantBroadcastRooms restaurantId) (hmember : room ∈ socket.rooms) :
    handshake.role = ADMIN_ROLE ∨
      (handshake.role = STAFF_ROLE ∨ handshake.role = RESTAURANT_OWNER_ROLE) ∧
        handshake.trimmedHeaderRestaurantId = some restaurantId := by
  have hadmits : Admits auth answers fun _ => True :=
    ⟨fun _ _ => trivial, fun _ _ => trivial, fun _ _ _ _ => trivial⟩
  obtain ⟨r, hr, hsame⟩ := granted_restaurant ((run_confined hadmits hrun).rooms room hmember) hroom
  obtain ⟨-, hrole, hrestaurant, -⟩ := socketAuthMiddleware_ok hauth
  refine (member_role hr).imp hrole.symm.trans fun ⟨hstaff, hheader⟩ => ?_
  rw [hrole] at hstaff
  rw [hrestaurant, Handshake.effectiveRestaurantId, if_pos hstaff] at hheader
  obtain rfl | rfl := hsame
  · exact ⟨hstaff, hheader⟩
  · have hcolon := (huuid _ hheader).2 ':' (by simp [String.toList_append])
    exact absurd hcolon (by decide)

def RESTAURANT_ONE : String := "11111111-1111-1111-1111-111111111111"

def RESTAURANT_TWO : String := "22222222-2222-2222-2222-222222222222"

def TICKET : String := "44444444-4444-4444-4444-444444444444"

def staffHandshake : Handshake where
  headers := ⟨.single "33333333-3333-3333-3333-333333333333", .single "Staff", .single RESTAURANT_ONE,
    .undefined, .undefined⟩
  query := ⟨.other, .string RESTAURANT_TWO⟩

def staffUser : AuthenticatedSocketUser :=
  ⟨"33333333-3333-3333-3333-333333333333", STAFF_ROLE, some RESTAURANT_ONE, none, none⟩

/-- Staff of A asks for the room of B. -/
def askForB : ClientEvent := .joinRestaurant (.object [("restaurantId", .string RESTAURANT_TWO)])

theorem restaurant_rooms_confined_staff :
    staffHandshake.role = ADMIN_ROLE ∨
      (staffHandshake.role = STAFF_ROLE ∨ staffHandshake.role = RESTAURANT_OWNER_ROLE) ∧
        staffHandshake.trimmedHeaderRestaurantId = some RESTAURANT_ONE := by
  have hrun : Run (Step true fun _ _ => True) (handleSocketConnection staffUser) _ _ :=
    .snoc .nil (.client askForB)
  have hroom : restaurantRoom RESTAURANT_ONE ∈ restaurantBroadcastRooms RESTAURANT_ONE := by decide
  exact restaurant_rooms_confined rfl (by decide) hrun hroom (by decide)

/-- The sources of trust a ticket room may be entered on. -/
def Entitled (handshake : Handshake) (s : Store) (ticketId : String) : Prop :=
  handshake.role = ADMIN_ROLE ∨ truthy handshake.trimmedHeaderTicketId = some ticketId ∨
    (handshake.role = CUSTOMER_ROLE ∧ ∃ e, s.findById ticketId = some e ∧
      e.userId.map (·.text) = getHeaderValue handshake.headers.userId) ∨
    (handshake.role = STAFF_ROLE ∨ handshake.role = RESTAURANT_OWNER_ROLE) ∧
      ∃ e, s.findById ticketId = some e ∧
        handshake.trimmedHeaderRestaurantId = some e.restaurantId.text

theorem requestTicketId_cases {ticketId : String} (h : handshake.requestTicketId = some ticketId) :
    truthy handshake.trimmedHeaderTicketId = some ticketId ∨
      truthy handshake.trimmedHeaderTicketId = none ∧
        getParamValue handshake.query.ticketId = some ticketId := by
  rw [Handshake.requestTicketId] at h
  cases hheader : truthy handshake.trimmedHeaderTicketId with
  | none =>
    rw [hheader] at h
    exact .inr ⟨rfl, h⟩
  | some header =>
    rw [hheader] at h
    exact .inl h

theorem verifyTicket_cases {e : QueueEntry} (h : verifyTicket auth (.ok (some e)) ≠ .unauthorized) :
    ((auth.role = STAFF_ROLE ∨ auth.role = RESTAURANT_OWNER_ROLE) ∧
      truthy auth.restaurantId = some e.restaurantId.text) ∨
    (auth.role = CUSTOMER_ROLE ∧ auth.userId ≠ "" ∧ e.userId.map (·.text) = some auth.userId) := by
  by_contra hneither
  obtain ⟨hmember, howner⟩ := not_or.mp hneither
  apply h
  change (if _ then _ else if _ then _ else _) = Verdict.unauthorized
  rw [if_neg hmember, if_neg howner]

theorem verified_entitled {s : Store} {ticketId : String} {answer : TicketAnswer}
    (hauth : socketAuthMiddleware handshake = .ok auth) (hanswer : LooksUp s ticketId answer)
    (hverdict : verifyTicket auth answer ≠ .unauthorized) : Entitled handshake s ticketId := by
  obtain ⟨huser, hrole, hrestaurant, -⟩ := socketAuthMiddleware_ok hauth
  obtain rfl | rfl := hanswer
  · exact (hverdict rfl).elim
  generalize hfound : s.findById ticketId = found at hverdict
  cases found with
  | none => exact (hverdict rfl).elim
  | some e =>
    obtain ⟨hstaff, hsame⟩ | ⟨hcustomer, -, hsame⟩ := verifyTicket_cases hverdict
    · rw [hrole] at hstaff
      rw [hrestaurant, Handshake.effectiveRestaurantId, if_pos hstaff] at hsame
      exact .inr (.inr (.inr ⟨hstaff, e, hfound, (truthy_some hsame).1⟩))
    · refine .inr (.inr (.inl ⟨hrole ▸ hcustomer, e, hfound, ?_⟩))
      rw [hsame, (truthy_some huser).1]

/-- A socket follows a ticket on trusted grounds, or because its handshake, without
a ticket header, named the ticket in the query. -/
theorem ticket_rooms_confined {s : Store} {ticketId : String}
    (hauth : socketAuthMiddleware handshake = .ok auth)
    (hrun : Run (Step bound (LooksUp s)) (handleSocketConnection auth) tr socket)
    (hroom : room ∈ ticketBroadcastRooms ticketId) (hmember : room ∈ socket.rooms) :
    Entitled handshake s ticketId ∨
      truthy handshake.trimmedHeaderTicketId = none ∧
        getParamValue handshake.query.ticketId = some ticketId := by
  obtain ⟨-, hrole, -, hticket⟩ := socketAuthMiddleware_ok hauth
  have hadmits : Admits auth (LooksUp s) fun ticketId => Entitled handshake s ticketId ∨
      truthy handshake.trimmedHeaderTicketId = none ∧
        getParamValue handshake.query.ticketId = some ticketId := by
    refine ⟨fun ticketId hrequest => ?_, fun hadmin _ => .inl (.inl (hrole ▸ hadmin)), ?_⟩
    · rw [hticket] at hrequest
      exact (requestTicketId_cases hrequest).imp_left fun hheader => .inr (.inl hheader)
    · exact fun ticketId answer hanswer hverdict => .inl (verified_entitled hauth hanswer hverdict)
  exact granted_ticket ((run_confined hadmits hrun).rooms room hmember) hroom

def ownTicket : QueueEntry :=
  create ⟨RESTAURANT_ONE, some "55555555-5555-5555-5555-555555555555", "Guest", "+15559876543", "Q-001",
    2, none, .online, 1, 10, none⟩ (.ofText TICKET) 0

def oneTicket : Store := ⟨[ownTicket], [], [], by decide⟩

/-- The customer whose ticket it is asks for it. -/
def guestHandshake : Handshake where
  headers := ⟨.single "55555555-5555-5555-5555-555555555555", .single "customer", .undefined,
    .undefined, .undefined⟩
  query := ⟨.other, .other⟩

def guestUser : AuthenticatedSocketUser :=
  ⟨"55555555-5555-5555-5555-555555555555", CUSTOMER_ROLE, none, none, none⟩

def guestAsks : ClientEvent := .joinTicket (.object [("ticketId", .string TICKET)])

def guestAwaits : Socket := (registerRoomHandlers true (handleSocketConnection guestUser) guestAsks).1

def guestAnswer : TicketAnswer := .ok (oneTicket.findById TICKET)

theorem ticket_rooms_confined_guest :
    Entitled guestHandshake oneTicket TICKET ∨
      truthy guestHandshake.trimmedHeaderTicketId = none ∧
        getParamValue guestHandshake.query.ticketId = some TICKET := by
  have hawaiting : TICKET ∈ guestAwaits.awaiting := by decide
  have hrun : Run (Step true (LooksUp oneTicket)) (handleSocketConnection guestUser)
      [⟨handleSocketConnection guestUser, .client guestAsks, guestAwaits⟩,
        ⟨guestAwaits, .answered TICKET guestAnswer, (answerTicket guestAwaits TICKET guestAnswer).1⟩]
      (answerTicket guestAwaits TICKET guestAnswer).1 :=
    run_cons (e := ⟨_, _, _⟩) (.client guestAsks)
      (run_cons (e := ⟨_, _, _⟩) (.answered hawaiting (.inr rfl)) .nil)
  have hroom : ticketRoom TICKET ∈ ticketBroadcastRooms TICKET := by decide
  exact ticket_rooms_confined rfl hrun hroom (by decide)

/-- A customer who names somebody's ticket in the query. -/
def curiousHandshake : Handshake where
  headers := ⟨.single "88888888-8888-8888-8888-888888888888", .single "CUSTOMER", .undefined,
    .undefined, .undefined⟩
  query := ⟨.string TICKET, .other⟩

def curiousUser : AuthenticatedSocketUser :=
  ⟨"88888888-8888-8888-8888-888888888888", CUSTOMER_ROLE, none, some TICKET, none⟩

theorem ticket_room_by_query :
    ¬ ∀ (handshake : Handshake) (auth : AuthenticatedSocketUser) (bound : Bool) (s : Store)
      (tr : List (Transition Socket SocketEvent)) (socket : Socket) (ticketId : String),
      socketAuthMiddleware handshake = .ok auth →
      Run (Step bound (LooksUp s)) (handleSocketConnection auth) tr socket →
      ticketRoom ticketId ∈ socket.rooms → Entitled handshake s ticketId := by
  intro hclaim
  have hentitled := hclaim curiousHandshake curiousUser true oneTicket [] _ TICKET rfl .nil (by decide)
  obtain hadmin | hheader | ⟨-, e, hfound, howner⟩ | ⟨hstaff, -⟩ := hentitled
  · exact absurd hadmin (by decide)
  · exact absurd hheader (by decide)
  · have he : oneTicket.findById TICKET = some ownTicket := by decide
    rw [he] at hfound
    cases hfound
    exact absurd howner (by decide)
  · exact absurd hstaff (by decide)

end SpotQueue.RoomMembership
