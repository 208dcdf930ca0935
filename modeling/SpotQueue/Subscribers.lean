import SpotQueue.SocketHub

namespace SpotQueue.Subscribers

open SpotQueue.Entity SpotQueue.Repository SpotQueue.Environment SpotQueue.UseCases
open SpotQueue.StaffApi SpotQueue.SocketRooms SpotQueue.RoomMembership SpotQueue.Line
open SpotQueue.Stewardship SpotQueue.DurableRows SpotQueue.SocketHub
open SpotQueue.Awaits.LabelledRun

variable {ι κ : Type} [DecidableEq ι] [DecidableEq κ] {E : Env} {bound : Bool}
  {ops : ι → Operation} {w : World} {tr : HubHistory ι κ} {hub hub' : Hub ι κ} {k : κ}
  {client : Client} {handshake : Handshake} {ticketId : String} {socket socket' : Socket}
  {e : QueueEntry}

/-- The client is the customer the ticket is for, or is staff or owner where it waits. -/
def Belongs (handshake : Handshake) (e : QueueEntry) : Prop :=
  (handshake.role = CUSTOMER_ROLE ∧ ∃ userId, truthy (getHeaderValue handshake.headers.userId) =
    some userId ∧ e.userId.map (·.text) = some userId) ∨
  (handshake.role = STAFF_ROLE ∨ handshake.role = RESTAURANT_OWNER_ROLE) ∧
    truthy handshake.trimmedHeaderRestaurantId = some e.restaurantId.text

/-- The client asks to leave the room of the ticket, or goes altogether. -/
def Parts (k : κ) (ticketId : String) : HubEvent ι κ → Prop
  | .disconnect j => j = k
  | .socket j (.client (.leaveTicket data)) =>
    j = k ∧ (data.property "ticketId").nonEmptyString = some ticketId
  | _ => False

theorem ticketRoom_ne_restaurantRoom (ticketId restaurantId : String) :
    ticketRoom ticketId ≠ restaurantRoom restaurantId :=
  prefixes_differ 0 (by decide) (by decide) (by decide)

theorem ticketRoom_ne_queueRoom (ticketId queueId : String) : ticketRoom ticketId ≠ queueRoom queueId :=
  prefixes_differ 0 (by decide) (by decide) (by decide)

theorem rooms_leaveHandler {data : JsValue} {field required room : String} {rooms : String → String}
    (hroom : room ∈ socket.rooms)
    (hne : ∀ id, (data.property field).nonEmptyString = some id → room ≠ rooms id) :
    room ∈ (leaveHandler socket data field required rooms).1.rooms := by
  rw [leaveHandler]
  split
  · exact hroom
  · rename_i id hid
    exact Finset.mem_erase.mpr ⟨hne id hid, hroom⟩

theorem rooms_registerRoomHandlers {event : ClientEvent} (hroom : ticketRoom ticketId ∈ socket.rooms)
    (hstays : ∀ data, event = .leaveTicket data →
      (data.property "ticketId").nonEmptyString ≠ some ticketId) :
    ticketRoom ticketId ∈ (registerRoomHandlers bound socket event).1.rooms := by
  have hjoin : ∀ room, ticketRoom ticketId ∈ (socket.join room).rooms :=
    fun room => Finset.mem_insert_of_mem hroom
  cases event with
  | joinRestaurant data =>
    rw [registerRoomHandlers, joinRestaurant]
    split
    · exact hroom
    · split
      · exact hjoin _
      · exact hroom
  | joinTicket data =>
    rw [registerRoomHandlers, joinTicket]
    split
    · exact hroom
    · split
      · exact hjoin _
      · split
        · exact hroom
        · exact hroom
  | joinQueue data =>
    rw [registerRoomHandlers, joinQueue]
    split
    · exact hroom
    · split
      · exact hjoin _
      · exact hroom
  | leaveRestaurant data =>
    exact rooms_leaveHandler hroom fun id _ => ticketRoom_ne_restaurantRoom _ _
  | leaveQueue data => exact rooms_leaveHandler hroom fun id _ => ticketRoom_ne_queueRoom _ _
  | leaveTicket data =>
    refine rooms_leaveHandler hroom fun id hid heq => hstays data rfl ?_
    rw [hid, append_text_inj heq]

theorem rooms_answerTicket {other : String} {answer : TicketAnswer}
    (hroom : ticketRoom ticketId ∈ socket.rooms) :
    ticketRoom ticketId ∈ (answerTicket socket other answer).1.rooms := by
  rw [answerTicket]
  split
  · exact Finset.mem_insert_of_mem hroom
  · exact Finset.mem_insert_of_mem hroom
  · exact hroom

/-- A look-up that speaks for the client lets it into the room. -/
theorem rooms_admitted {answer : TicketAnswer} (h : verifyTicket socket.user answer ≠ .unauthorized) :
    ticketRoom ticketId ∈ (answerTicket socket ticketId answer).1.rooms := by
  rw [answerTicket]
  split
  · exact Finset.mem_insert_self _ _
  · exact Finset.mem_insert_self _ _
  · rename_i hverdict
    exact (h hverdict).elim

theorem belongs_verified {s : Store} (h : Welcome s client) (hbelongs : Belongs client.handshake e) :
    verifyTicket client.socket.user (.ok (some e)) ≠ .unauthorized := by
  obtain ⟨auth, hauth, hconfined⟩ := h
  obtain ⟨huser, hrole, hrestaurant, -⟩ := socketAuthMiddleware_ok hauth
  rw [confined_verify hconfined]
  change (if _ then _ else if _ then _ else _) ≠ Verdict.unauthorized
  obtain ⟨hcustomer, userId, hheader, howner⟩ | ⟨hstaff, hhome⟩ := hbelongs
  · split
    · exact Verdict.noConfusion
    · rw [huser] at hheader
      cases hheader
      rw [if_pos ⟨hrole.trans hcustomer, (truthy_some huser).2, howner⟩]
      exact Verdict.noConfusion
  · rw [if_pos]
    · exact Verdict.noConfusion
    · rw [hrole, hrestaurant, Handshake.effectiveRestaurantId, if_pos hstaff]
      exact ⟨hstaff, hhome⟩

/-- Connected still, in the same name, and in the room. -/
def Listens (handshake : Handshake) (ticketId : String) (hub : Hub ι κ) (k : κ) : Prop :=
  ∃ client, hub.clients k = some client ∧ client.handshake = handshake ∧
    ticketRoom ticketId ∈ client.socket.rooms

theorem listens_advances {event : HubEvent ι κ} (h : Listens handshake ticketId hub k)
    (hstep : Advances E bound hub event hub') (hstays : ¬ Parts k ticketId event) :
    Listens handshake ticketId hub' k := by
  obtain ⟨client, hclient, hsame, hroom⟩ := h
  cases hstep with
  | @connection j _ _ hfree _ =>
    have hne : k ≠ j := by
      rintro rfl
      rw [hfree] at hclient
      cases hclient
    exact ⟨client, (Function.update_of_ne hne _ _).trans hclient, hsame, hroom⟩
  | disconnect j =>
    have hne : k ≠ j := fun heq => hstays heq.symm
    exact ⟨client, (Function.update_of_ne hne _ _).trans hclient, hsame, hroom⟩
  | call _ => exact ⟨client, hclient, hsame, hroom⟩
  | @socket j talker event socket' hj hsocket =>
    by_cases hk : k = j
    · subst hk
      rw [hclient] at hj
      cases hj
      refine ⟨_, Function.update_self _ _ _, hsame, ?_⟩
      cases hsocket with
      | client event =>
        refine rooms_registerRoomHandlers hroom fun data hevent hleaves => hstays ?_
        subst hevent
        exact ⟨rfl, hleaves⟩
      | answered _ _ => exact rooms_answerTicket hroom
    · exact ⟨client, (Function.update_of_ne hk _ _).trans hclient, hsame, hroom⟩

theorem listens_run (hrun : Run (Advances E bound) hub tr hub')
    (hstays : ∀ step ∈ tr, ¬ Parts k ticketId step.label) (h : Listens handshake ticketId hub k) :
    Listens handshake ticketId hub' k :=
  run_invariant (I := fun _ (hub : Hub ι κ) => Listens handshake ticketId hub k)
    (G := fun step => ¬ Parts k ticketId step.label) h
    (fun _ hI hstep hG => listens_advances hI hstep hG) hrun hstays

theorem hub_durable (hrun : Run (Advances E bound) hub tr hub')
    (hcalls : ∀ step ∈ tr, ∀ l, step.label = .call l →
      Stewarded ops ⟨step.before.service, l, step.after.service⟩) :
    Durable hub.service.state.store hub'.service.state.store := by
  refine run_invariant
    (I := fun _ (q : Hub ι κ) => Durable hub.service.state.store q.service.state.store)
    (G := fun step => ∀ l, step.label = .call l →
      Stewarded ops ⟨step.before.service, l, step.after.service⟩)
    (durable_refl _) ?_ hrun hcalls
  rintro tr hub event hub' - hI hstep hG
  cases hstep with
  | call hcall => exact durable_trans hI (step_durable hcall (hG _ rfl)).1
  | _ => exact hI

/-- Once a ticket has been stored, a client it belongs to that asks for it by the id
as stored is let into its room by the first look-up that does not fail, and from then
on hears whatever is sent to the ticket, until it asks to leave or disconnects. Asked
for in other letters the ticket would be found as well, but not its room. -/
theorem follower_hears {pre mid : HubHistory ι κ} {stored lookup : Transition (Hub ι κ) (HubEvent ι κ)}
    (hrun : Run (Advances E bound) (opening κ ops w) (pre ++ lookup :: mid) hub)
    (hstored : stored ∈ pre) (he : e ∈ stored.after.service.state.store.entries)
    (hclient : lookup.before.clients k = some client) (hbelongs : Belongs client.handshake e)
    (hlookup : lookup.label = .socket k
      (.answered e.id.text (.ok (lookup.before.service.state.store.findById e.id.text))))
    (hstays : ∀ step ∈ mid, ¬ Parts k e.id.text step.label) :
    ∃ client', hub.clients k = some client' ∧ client'.handshake = client.handshake ∧
      ∀ event data, Hears client' (.sendToTicket e.id.text event data) := by
  have hcalls := hub_stewarded hrun
  obtain ⟨hpre, hadvance, hmid⟩ := run_split hrun
  have hwelcome : Welcome lookup.before.service.state.store client :=
    hub_welcome hpre k client hclient
  obtain ⟨past, present, rfl⟩ := List.append_of_mem hstored
  obtain ⟨-, -, hpresent⟩ := run_split hpre
  have hdurable := hub_durable hpresent fun step hstep => hcalls step (by simp [hstep])
  obtain ⟨d, hd, hed⟩ := find_durable hdurable (find_eq_some.mpr ⟨he, rfl⟩)
  have hbelongs' : Belongs client.handshake d := by
    rw [hed]
    exact hbelongs
  have hlistens : Listens client.handshake e.id.text lookup.after k := by
    generalize hlabel : lookup.label = label at hadvance
    rw [hlookup] at hlabel
    subst hlabel
    generalize lookup.after = hub' at hadvance
    cases hadvance with
    | @socket _ talker _ socket' hk hsocket =>
      rw [hclient] at hk
      cases hk
      refine ⟨_, Function.update_self _ _ _, rfl, ?_⟩
      cases hsocket with
      | answered _ _ =>
        have hfind : lookup.before.service.state.store.findById e.id.text = some d := by
          rw [Store.findById, Uuid.ofText_text]
          exact hd
        rw [hfind]
        exact rooms_admitted (belongs_verified hwelcome hbelongs')
  obtain ⟨client', hclient', hsame, hroom⟩ := listens_run hmid hstays hlistens
  exact ⟨client', hclient', hsame, fun event data => ⟨_, List.mem_cons_self, hroom⟩⟩

section witness

open SpotQueue.StaffIsolation SpotQueue.PoolIsolation SpotQueue.Simulation

def follow : ClientEvent := .joinTicket (.object [("ticketId", .string TICKET_A)])

def asking : Socket := (registerRoomHandlers true (handleSocketConnection hostUser) follow).1

def found : TicketAnswer := .ok (twoRestaurants.store.findById TICKET_A)

def following : Socket := (answerTicket asking TICKET_A found).1

def host (socket : Socket) : Hub Bool Unit :=
  ⟨together bothAtA twoRestaurants, fun _ => some ⟨hostOfA, socket⟩⟩

theorem host_update (clients : Unit → Option Client) (socket : Socket) :
    (⟨together bothAtA twoRestaurants,
      Function.update clients () (some ⟨hostOfA, socket⟩)⟩ : Hub Bool Unit) = host socket := by
  have hclients : Function.update clients () (some ⟨hostOfA, socket⟩) = fun _ => some ⟨hostOfA, socket⟩ := by
    funext k
    exact Function.update_self _ _ _
  rw [hclients, host]

/-- The host connects and asks for the ticket. -/
def asks : HubHistory Bool Unit :=
  [⟨opening Unit bothAtA twoRestaurants, .connection () hostOfA, host (handleSocketConnection hostUser)⟩,
    ⟨host (handleSocketConnection hostUser), .socket () (.client follow), host asking⟩]

def answered : Transition (Hub Bool Unit) (HubEvent Bool Unit) :=
  ⟨host asking, .socket () (.answered TICKET_A found), host following⟩

theorem answered_run : Run (Advances smooth.env true) (opening Unit bothAtA twoRestaurants)
    (asks ++ answered :: unattended (host following).clients inTurns.1)
    ⟨inTurns.2, (host following).clients⟩ := by
  have hconnects : Advances smooth.env true (opening Unit bothAtA twoRestaurants)
      (.connection () hostOfA) (host (handleSocketConnection hostUser)) := by
    have h : Advances smooth.env true (opening Unit bothAtA twoRestaurants) (.connection () hostOfA)
        ⟨together bothAtA twoRestaurants, Function.update (fun _ => none) ()
          (some ⟨hostOfA, handleSocketConnection hostUser⟩)⟩ := .connection rfl rfl
    rwa [host_update] at h
  have hasks : Advances smooth.env true (host (handleSocketConnection hostUser))
      (.socket () (.client follow)) (host asking) := by
    have hk : (host (handleSocketConnection hostUser)).clients () =
        some ⟨hostOfA, handleSocketConnection hostUser⟩ := rfl
    have h := Advances.socket (E := smooth.env) hk (.client follow : SocketRooms.Step true _ _ _ _)
    rwa [host, host_update] at h
  have hanswered : Advances smooth.env true (host asking) (.socket () (.answered TICKET_A found))
      (host following) := by
    have hk : (host asking).clients () = some ⟨hostOfA, asking⟩ := rfl
    have hawaiting : TICKET_A ∈ asking.awaiting := by decide
    have h := Advances.socket (E := smooth.env) hk
      (.answered hawaiting (.inr rfl) : SocketRooms.Step true _ _ (.answered TICKET_A found) _)
    rwa [host, host_update] at h
  have hcalls : Run (Advances smooth.env true) (host following)
      (unattended (host following).clients inTurns.1) ⟨inTurns.2, (host following).clients⟩ :=
    unattended_run _ (Awaits.AsyncPool.interleave_run smooth.reply_answers _ _)
  exact run_cons (e := ⟨_, _, _⟩) hconnects (run_cons (e := ⟨_, _, _⟩) hasks
    (run_cons (e := ⟨_, _, _⟩) hanswered hcalls))

theorem follower_hears_host :
    ∃ client', (host following).clients () = some client' ∧ client'.handshake = hostOfA ∧
      ∀ event data, Hears client' (.sendToTicket TICKET_A event data) := by
  have hbelongs : Belongs hostOfA (waitingAt RESTAURANT_A TICKET_A) :=
    .inr ⟨by decide, by decide⟩
  refine follower_hears answered_run (List.mem_of_mem_head? rfl) (by decide) rfl hbelongs rfl
    fun step hstep => ?_
  obtain ⟨call, -, rfl⟩ := List.mem_map.mp hstep
  exact id

end witness

end SpotQueue.Subscribers
