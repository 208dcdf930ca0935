import SpotQueue.DurableRows
import SpotQueue.PoolIsolation
import SpotQueue.RoomMembership

namespace SpotQueue.SocketHub

open SpotQueue.Entity SpotQueue.Repository SpotQueue.Environment SpotQueue.Recalculator
open SpotQueue.UseCases SpotQueue.StaffApi SpotQueue.SocketRooms SpotQueue.RoomMembership SpotQueue.Line
open SpotQueue.Stewardship SpotQueue.DurableRows
open SpotQueue.Awaits.LabelledRun
open SpotQueue.Awaits.AsyncPool (Interleaves)

section addressed

variable {ι : Type} [DecidableEq ι] {E : Env} {ops : ι → Operation} {w : World}
  {tr : Interleaving ι} {q : Underway ι} {s : Store}
  {step : Transition (Underway ι) (Awaits.AsyncPool.Step ι Call Answer QueueError)}

/-- What leaves the service for a restaurant goes to that restaurant, to its tickets
or to the device of one of its guests, and is about tickets stored for it. -/
def Addressed (r : String) (s : Store) : Call → Prop
  | .broadcastToRestaurant restaurantId _ data => restaurantId = r ∧ Concerns r (Stored r s) data
  | .sendToTicket ticketId _ data => Knows (Stored r s) (.ofText ticketId) ∧ Concerns r (Stored r s) data
  | .addJob job => ∃ d, Stored r s d ∧ JobOf job d
  | .publishToMlEta event => ∃ d, Stored r s d ∧ TrainingOf event d
  | .redisSet key state => ∃ id, Knows (Stored r s) id ∧ key = getKey id.text ∧
      state.queueEntryId = id.text ∧ state.restaurantId = r
  | .redisDel key => ∃ queueEntryId, Knows (Stored r s) (.ofText queueEntryId) ∧ key = getKey queueEntryId
  | .assignTables restaurantId _ | .releaseTables restaurantId _ => restaurantId = r
  | _ => True

omit [DecidableEq ι] in
theorem stewarded_addressed (h : Stewarded ops step) :
    Addressed (ops step.label.body).restaurantId step.before.state.store step.label.call := by
  obtain ⟨m, hallows, hm⟩ := h
  have hwide := allows_widen hm hallows
  cases hc : step.label.call with
  | broadcastToRestaurant | sendToTicket | addJob | publishToMlEta | redisSet | redisDel
  | assignTables | releaseTables =>
    rw [hc] at hwide
    exact hwide
  | _ => trivial

/-- In any interleaving, whatever an operation sends out while others are under way
is addressed to its own restaurant and speaks of that restaurant's tickets only. -/
theorem interleaving_addressed (hrun : Run (Interleaves E.Answers) (together ops w) tr q) :
    ∀ step ∈ tr, Addressed (ops step.label.body).restaurantId step.before.state.store step.label.call :=
  fun step hstep => stewarded_addressed (run_stewarded hrun step hstep)

open SpotQueue.Departure in
theorem interleaving_addressed_seatAndCancel :
    (taking seatedThenCancelled).1.length = 12 ∧ ∀ step ∈ (taking seatedThenCancelled).1,
      Addressed (seatAndCancel step.label.body).restaurantId step.before.state.store step.label.call :=
  ⟨by decide +kernel, interleaving_addressed (taking_run seatedThenCancelled)⟩

end addressed

/-- A connected client and the handshake it came with. -/
structure Client where
  handshake : Handshake
  socket : Socket

/-- The service at work: operations under way on the database, and whoever listens. -/
structure Hub (ι κ : Type) where
  service : Underway ι
  clients : κ → Option Client

inductive HubEvent (ι κ : Type)
  | connection (k : κ) (handshake : Handshake)
  | disconnect (k : κ)
  | socket (k : κ) (event : SocketEvent)
  | call (step : Awaits.AsyncPool.Step ι Call Answer QueueError)

variable {ι κ : Type} [DecidableEq ι] [DecidableEq κ] {E : Env} {bound : Bool}

/-- Clients come, talk and go while the operations proceed call by call; a look-up
that a handler waits for is answered from the store of that moment. -/
inductive Advances (E : Env) (bound : Bool) : Hub ι κ → HubEvent ι κ → Hub ι κ → Prop
  | connection {hub : Hub ι κ} {k : κ} {handshake : Handshake} {auth : AuthenticatedSocketUser}
      (hfree : hub.clients k = none) (hauth : socketAuthMiddleware handshake = .ok auth) :
      Advances E bound hub (.connection k handshake) { hub with
        clients := Function.update hub.clients k (some ⟨handshake, handleSocketConnection auth⟩) }
  | disconnect {hub : Hub ι κ} (k : κ) : Advances E bound hub (.disconnect k)
      { hub with clients := Function.update hub.clients k none }
  | socket {hub : Hub ι κ} {k : κ} {client : Client} {event : SocketEvent} {socket' : Socket}
      (hk : hub.clients k = some client)
      (hstep : SocketRooms.Step bound (LooksUp hub.service.state.store) client.socket event socket') :
      Advances E bound hub (.socket k event) { hub with
        clients := Function.update hub.clients k (some { client with socket := socket' }) }
  | call {hub : Hub ι κ} {step : Awaits.AsyncPool.Step ι Call Answer QueueError}
      {service : Underway ι} (hstep : Interleaves E.Answers hub.service step service) :
      Advances E bound hub (.call step) { hub with service := service }

/-- The rooms a call has something emitted to. -/
def emittedRooms : Call → List String
  | .broadcastToRestaurant restaurantId _ _ => restaurantBroadcastRooms restaurantId
  | .sendToTicket ticketId _ _ => ticketBroadcastRooms ticketId
  | _ => []

def Hears (client : Client) (c : Call) : Prop := ∃ room ∈ emittedRooms c, room ∈ client.socket.rooms

/-- On trusted grounds, or for having named the ticket in the query without a header. -/
def MayFollow (handshake : Handshake) (s : Store) (ticketId : String) : Prop :=
  Entitled handshake s ticketId ∨ truthy handshake.trimmedHeaderTicketId = none ∧
    getParamValue handshake.query.ticketId = some ticketId

def MayHear (handshake : Handshake) (s : Store) : Call → Prop
  | .broadcastToRestaurant restaurantId _ _ => handshake.role = ADMIN_ROLE ∨
      (handshake.role = STAFF_ROLE ∨ handshake.role = RESTAURANT_OWNER_ROLE) ∧
        handshake.trimmedHeaderRestaurantId = some restaurantId
  | .sendToTicket ticketId _ _ => MayFollow handshake s ticketId
  | _ => True

variable {s s' : Store} {handshake : Handshake} {ticketId : String} {id : Uuid} {e : QueueEntry}
  {auth : AuthenticatedSocketUser} {May May' : String → Prop} {socket : Socket} {client : Client}
  {c : Call} {ops : ι → Operation} {w : World}

theorem find_durable (h : Durable s s') (hfind : s.find id = some e) :
    ∃ d, s'.find id = some d ∧ SameParty e d := by
  obtain ⟨he, rfl⟩ := find_eq_some.mp hfind
  obtain ⟨d, hd, hed⟩ := grown_mem h.rows he
  exact ⟨d, find_eq_some.mpr ⟨hd, hed.id_eq⟩, hed⟩

/-- Whoever may follow a ticket may do so for good: it never changes hands. -/
theorem mayFollow_durable (h : Durable s s') (hmay : MayFollow handshake s ticketId) :
    MayFollow handshake s' ticketId := by
  refine hmay.imp_left fun hentitled => ?_
  obtain hadmin | hheader | ⟨hcustomer, e, he, howner⟩ | ⟨hstaff, e, he, hhome⟩ := hentitled
  · exact .inl hadmin
  · exact .inr (.inl hheader)
  · obtain ⟨d, hd, hed⟩ := find_durable h he
    rw [hed] at hd
    exact .inr (.inr (.inl ⟨hcustomer, _, hd, howner⟩))
  · obtain ⟨d, hd, hed⟩ := find_durable h he
    rw [hed] at hd
    exact .inr (.inr (.inr ⟨hstaff, _, hd, hhome⟩))

theorem granted_mono {room : String} (hmay : ∀ t, May t → May' t) (h : Granted auth May room) :
    Granted auth May' room := by
  cases h with
  | user => exact .user
  | ticket h => exact .ticket (hmay _ h)
  | queue => exact .queue _
  | restaurant h => exact .restaurant h

theorem confined_mono (hmay : ∀ t, May t → May' t) (h : Confined auth May socket) :
    Confined auth May' socket :=
  ⟨h.identity, fun t ht => hmay t (h.ticket t ht), fun room hroom => granted_mono hmay (h.rooms room hroom)⟩

theorem mayFollow_admits (hauth : socketAuthMiddleware handshake = .ok auth) :
    Admits auth (LooksUp s) (MayFollow handshake s) := by
  obtain ⟨-, hrole, -, hticket⟩ := socketAuthMiddleware_ok hauth
  refine ⟨fun ticketId hrequest => ?_, fun hadmin _ => .inl (.inl (hrole ▸ hadmin)),
    fun ticketId answer hanswer hverdict => .inl (verified_entitled hauth hanswer hverdict)⟩
  rw [hticket] at hrequest
  exact (requestTicketId_cases hrequest).imp_left fun hheader => .inr (.inl hheader)

/-- Every room a client is in, it is in for a reason that still holds. -/
def Welcome (s : Store) (client : Client) : Prop :=
  ∃ auth, socketAuthMiddleware client.handshake = .ok auth ∧
    Confined auth (MayFollow client.handshake s) client.socket

theorem welcome_durable (h : Durable s s') (hclient : Welcome s client) : Welcome s' client := by
  obtain ⟨auth, hauth, hconfined⟩ := hclient
  exact ⟨auth, hauth, confined_mono (fun _ => mayFollow_durable h) hconfined⟩

theorem welcome_connection (hauth : socketAuthMiddleware handshake = .ok auth) :
    Welcome s ⟨handshake, handleSocketConnection auth⟩ :=
  ⟨auth, hauth, confined_connection (mayFollow_admits hauth)⟩

theorem welcome_step {event : SocketEvent} {socket' : Socket} (hclient : Welcome s client)
    (hstep : SocketRooms.Step bound (LooksUp s) client.socket event socket') :
    Welcome s { client with socket := socket' } := by
  obtain ⟨auth, hauth, hconfined⟩ := hclient
  exact ⟨auth, hauth, confined_step (mayFollow_admits hauth) hconfined hstep⟩

/-- The gateway puts nothing but a uuid into the restaurant header. -/
def UuidHeader (client : Client) : Prop :=
  ∀ r ∈ client.handshake.trimmedHeaderRestaurantId, UuidText r

theorem member_broadcast {restaurantId room : String} (huuid : UuidHeader client)
    (hclient : Welcome s client) (hroom : room ∈ restaurantBroadcastRooms restaurantId)
    (hmember : room ∈ client.socket.rooms) :
    client.handshake.role = ADMIN_ROLE ∨
      (client.handshake.role = STAFF_ROLE ∨ client.handshake.role = RESTAURANT_OWNER_ROLE) ∧
        client.handshake.trimmedHeaderRestaurantId = some restaurantId := by
  obtain ⟨auth, hauth, hconfined⟩ := hclient
  obtain ⟨r, hr, hsame⟩ := granted_restaurant (hconfined.rooms room hmember) hroom
  obtain ⟨-, hrole, hrestaurant, -⟩ := socketAuthMiddleware_ok hauth
  obtain hadmin | ⟨hstaff, hown⟩ := member_role hr
  · exact .inl (hrole ▸ hadmin)
  rw [hrole] at hstaff
  rw [hrestaurant, Handshake.effectiveRestaurantId, if_pos hstaff] at hown
  obtain rfl | rfl := hsame
  · exact .inr ⟨hstaff, hown⟩
  · have hcolon := (huuid _ hown).2 ':' (by simp [String.toList_append])
    exact absurd hcolon (by decide)

theorem welcome_mayHear (huuid : UuidHeader client) (hclient : Welcome s client)
    (hhears : Hears client c) : MayHear client.handshake s c := by
  obtain ⟨room, hroom, hmember⟩ := hhears
  cases c with
  | broadcastToRestaurant => exact member_broadcast huuid hclient hroom hmember
  | sendToTicket =>
    obtain ⟨auth, -, hconfined⟩ := hclient
    exact granted_ticket (hconfined.rooms room hmember) hroom
  | _ => trivial

abbrev HubHistory (ι κ : Type) := List (Transition (Hub ι κ) (HubEvent ι κ))

/-- Nobody is connected yet when the operations start. -/
def opening (κ : Type) (ops : ι → Operation) (w : World) : Hub ι κ := ⟨together ops w, fun _ => none⟩

variable {tr : HubHistory ι κ} {hub : Hub ι κ}

/-- The calls of a run of the hub are an interleaving of the operations. -/
theorem hub_interleaves (hrun : Run (Advances E bound) (opening κ ops w) tr hub) :
    ∃ calls, Run (Interleaves E.Answers) (together ops w) calls hub.service ∧
      ∀ step ∈ tr, ∀ l, step.label = .call l → ⟨step.before.service, l, step.after.service⟩ ∈ calls := by
  induction hrun with
  | nil => exact ⟨[], .nil, List.forall_mem_nil _⟩
  | @snoc tr hub hub' event _ hstep ih =>
    obtain ⟨calls, hcalls, hmem⟩ := ih
    cases hstep with
    | @call l service h =>
      refine ⟨calls ++ [⟨hub.service, l, service⟩], .snoc hcalls h, fun step hstep m hm => ?_⟩
      obtain hstep | hstep := List.mem_append.mp hstep
      · exact List.mem_append_left _ (hmem step hstep m hm)
      · cases List.mem_singleton.mp hstep
        cases hm
        exact List.mem_append_right _ List.mem_cons_self
    | _ =>
      refine ⟨calls, hcalls, fun step hstep m hm => ?_⟩
      obtain hstep | hstep := List.mem_append.mp hstep
      · exact hmem step hstep m hm
      · cases List.mem_singleton.mp hstep
        cases hm

theorem hub_stewarded (hrun : Run (Advances E bound) (opening κ ops w) tr hub) :
    ∀ step ∈ tr, ∀ l, step.label = .call l →
      Stewarded ops ⟨step.before.service, l, step.after.service⟩ := by
  obtain ⟨calls, hcalls, hmem⟩ := hub_interleaves hrun
  exact fun step hstep l hl => run_stewarded hcalls _ (hmem step hstep l hl)

def UuidHeaders (tr : HubHistory ι κ) : Prop :=
  ∀ step ∈ tr, ∀ k handshake, step.label = .connection k handshake →
    ∀ r ∈ handshake.trimmedHeaderRestaurantId, UuidText r

theorem clients_update {clients : κ → Option Client} {j k : κ} {new : Option Client}
    (h : Function.update clients j new k = some client) :
    k = j ∧ new = some client ∨ clients k = some client := by
  by_cases hk : k = j
  · subst hk
    rw [Function.update_self] at h
    exact .inl ⟨rfl, h⟩
  · rw [Function.update_of_ne hk] at h
    exact .inr h

/-- What is true of a client that connects, and stays so through its own events and the
calls of the operations, is true of every client. -/
theorem hub_clients {I : Store → Client → Prop} {P : Handshake → Prop}
    (hconnects : ∀ s handshake auth, P handshake → socketAuthMiddleware handshake = .ok auth →
      I s ⟨handshake, handleSocketConnection auth⟩)
    (hsteps : ∀ s client event socket', I s client →
      SocketRooms.Step bound (LooksUp s) client.socket event socket' →
      I s { client with socket := socket' })
    (hstays : ∀ s s' client, Durable s s' → I s client → I s' client)
    (hrun : Run (Advances E bound) (opening κ ops w) tr hub)
    (hP : ∀ step ∈ tr, ∀ k handshake, step.label = .connection k handshake → P handshake) :
    ∀ k client, hub.clients k = some client → I hub.service.state.store client := by
  refine run_invariant
    (I := fun _ (hub : Hub ι κ) => ∀ k client, hub.clients k = some client →
      I hub.service.state.store client)
    (G := fun step => (∀ l, step.label = .call l →
        Stewarded ops ⟨step.before.service, l, step.after.service⟩) ∧
      ∀ k handshake, step.label = .connection k handshake → P handshake)
    (fun _ _ h => by cases h) ?_ hrun fun step hstep => ⟨hub_stewarded hrun step hstep, hP step hstep⟩
  rintro tr hub event hub' - hI hstep ⟨hcalls, hhandshake⟩ k client hclient
  cases hstep with
  | connection hfree hauth =>
    obtain ⟨rfl, hnew⟩ | hold := clients_update hclient
    · cases hnew
      exact hconnects _ _ _ (hhandshake _ _ rfl) hauth
    · exact hI k client hold
  | disconnect j =>
    obtain ⟨-, hnone⟩ | hold := clients_update hclient
    · cases hnone
    · exact hI k client hold
  | socket hj hsocket =>
    obtain ⟨rfl, hnew⟩ | hold := clients_update hclient
    · cases hnew
      exact hsteps _ _ _ _ (hI k _ hj) hsocket
    · exact hI k client hold
  | call hcall =>
    exact hstays _ _ client (step_durable hcall (hcalls _ rfl)).1 (hI k client hclient)

theorem hub_welcome (hrun : Run (Advances E bound) (opening κ ops w) tr hub) :
    ∀ k client, hub.clients k = some client → Welcome hub.service.state.store client :=
  hub_clients (P := fun _ => True) (fun _ _ _ _ hauth => welcome_connection hauth)
    (fun _ _ _ _ => welcome_step) (fun _ _ _ => welcome_durable) hrun fun _ _ _ _ _ => trivial

/-- A client keeps the handshake it came with. -/
theorem hub_uuidHeader (huuid : UuidHeaders tr) (hrun : Run (Advances E bound) (opening κ ops w) tr hub) :
    ∀ k client, hub.clients k = some client → UuidHeader client :=
  hub_clients (I := fun _ client => UuidHeader client) (fun _ _ _ hheader _ => hheader)
    (fun _ _ _ _ hheader _ => hheader) (fun _ _ _ _ hheader => hheader) hrun huuid

/-- However clients and operations interleave, whatever a client hears is meant for
it when it is sent, though the look-up that let it into the room may be long past:
a broadcast for its own restaurant, or a message about a ticket it may follow, be it
only for having named it in its query. And
what it hears is about tickets of the restaurant whose operation sends it. -/
theorem hub_confined (huuid : UuidHeaders tr)
    (hrun : Run (Advances E bound) (opening κ ops w) tr hub) :
    ∀ step ∈ tr, ∀ l, step.label = .call l → ∀ k client, step.before.clients k = some client →
      Hears client l.call → MayHear client.handshake step.before.service.state.store l.call ∧
        Addressed (ops l.body).restaurantId step.before.service.state.store l.call := by
  intro step hstep l hl k client hclient hhears
  obtain ⟨pre, hpre, -, hsub⟩ := run_upto hrun hstep
  have huuid' : UuidHeaders pre := fun d hd => huuid d (hsub d (List.mem_append_left _ hd))
  exact ⟨welcome_mayHear (hub_uuidHeader huuid' hpre k client hclient)
      (hub_welcome hpre k client hclient) hhears,
    stewarded_addressed (hub_stewarded hrun step hstep l hl)⟩

/-- Calls that are answered while nobody comes or goes. -/
def unattended (clients : κ → Option Client) (calls : Interleaving ι) : HubHistory ι κ :=
  calls.map fun step => ⟨⟨step.before, clients⟩, .call step.label, ⟨step.after, clients⟩⟩

theorem unattended_run {q q' : Underway ι} {calls : Interleaving ι} (clients : κ → Option Client)
    (hcalls : Run (Interleaves E.Answers) q calls q') :
    Run (Advances E bound) ⟨q, clients⟩ (unattended clients calls) ⟨q', clients⟩ := by
  induction hcalls with
  | nil => exact .nil
  | snoc _ hstep ih =>
    rw [unattended, List.map_append]
    exact .snoc ih (.call hstep)

section witness

open SpotQueue.StaffIsolation SpotQueue.PoolIsolation SpotQueue.Simulation

def hostOfA : Handshake where
  headers := ⟨.single "33333333-3333-3333-3333-333333333333", .single "staff",
    .single RESTAURANT_A, .undefined, .undefined⟩
  query := ⟨.other, .other⟩

def hostUser : AuthenticatedSocketUser :=
  ⟨"33333333-3333-3333-3333-333333333333", STAFF_ROLE, some RESTAURANT_A, none,
    none⟩

def listening : Unit → Option Client := fun _ => some ⟨hostOfA, handleSocketConnection hostUser⟩

/-- The host connects, then the two operations at restaurant A take their turns. -/
def evening : HubHistory Bool Unit :=
  ⟨opening Unit bothAtA twoRestaurants, .connection () hostOfA,
    ⟨together bothAtA twoRestaurants, listening⟩⟩ :: unattended listening inTurns.1

theorem evening_run :
    Run (Advances smooth.env true) (opening Unit bothAtA twoRestaurants) evening
      ⟨inTurns.2, listening⟩ := by
  have hopen : Advances smooth.env true (opening Unit bothAtA twoRestaurants)
      (.connection () hostOfA) ⟨together bothAtA twoRestaurants, listening⟩ := by
    have h : Advances smooth.env true (opening Unit bothAtA twoRestaurants) (.connection () hostOfA)
        ⟨together bothAtA twoRestaurants, Function.update (fun _ => none) ()
          (some ⟨hostOfA, handleSocketConnection hostUser⟩)⟩ := .connection rfl rfl
    have hclients : Function.update (fun _ => none) ()
        (some ⟨hostOfA, handleSocketConnection hostUser⟩) = listening := by
      funext k
      cases k
      rfl
    rwa [hclients] at h
  exact run_cons (e := ⟨_, _, _⟩) hopen
    (unattended_run listening (Awaits.AsyncPool.interleave_run smooth.reply_answers _ _))

theorem hub_confined_evening :
    evening.length = 17 ∧ ∀ step ∈ evening, ∀ l, step.label = .call l →
      ∀ k client, step.before.clients k = some client → Hears client l.call →
        MayHear client.handshake step.before.service.state.store l.call ∧
          Addressed (bothAtA l.body).restaurantId step.before.service.state.store l.call := by
  refine ⟨by decide +kernel, hub_confined (fun step hstep k handshake hl => ?_) evening_run⟩
  obtain rfl | hstep := List.mem_cons.mp hstep
  · cases hl
    decide
  · obtain ⟨call, -, rfl⟩ := List.mem_map.mp hstep
    cases hl

end witness

end SpotQueue.SocketHub
