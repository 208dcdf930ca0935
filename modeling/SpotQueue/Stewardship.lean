import SpotQueue.RowWrites

namespace SpotQueue.Stewardship

open SpotQueue.Entity SpotQueue.Repository SpotQueue.Environment SpotQueue.Recalculator
open SpotQueue.UseCases SpotQueue.Frame SpotQueue.Guards SpotQueue.Line SpotQueue.Recalculation
open SpotQueue.Seating SpotQueue.Leaving SpotQueue.Registration SpotQueue.StoreChanges
open SpotQueue.Awaits.AsyncProgram SpotQueue.Awaits.AsyncProtocol

variable {r : String} {e d : QueueEntry} {c : Call} {m m' : QueueEntry → Prop} {id : Uuid}
  {data : Payload} {α β : Type}

/-- Two rows of one party. Its place, its state and its calls may differ; what it
was registered with may not. -/
def SameParty (e d : QueueEntry) : Prop :=
  d = { e with
    position := d.position
    estimatedWaitMinutes := d.estimatedWaitMinutes
    status := d.status
    ringCount := d.ringCount
    lastRingedAt := d.lastRingedAt
    seatedAt := d.seatedAt
    cancelledAt := d.cancelledAt
    updatedAt := d.updatedAt }

theorem sameParty_refl (e : QueueEntry) : SameParty e e := rfl

theorem sameParty_symm (h : SameParty e d) : SameParty d e := by
  rw [SameParty, h]

theorem sameParty_trans {f : QueueEntry} (h : SameParty e d) (h' : SameParty d f) : SameParty e f :=
  h'.trans (by rw [h])

theorem SameParty.id_eq (h : SameParty e d) : d.id = e.id := by rw [h]

theorem SameParty.restaurantId_eq (h : SameParty e d) : d.restaurantId = e.restaurantId := by rw [h]

/-- The mode of an execution is the set of rows it has been given. -/
def Knows (m : QueueEntry → Prop) (id : Uuid) : Prop := ∃ d, m d ∧ d.id = id

/-- The message is about tickets the execution knows, of the restaurant it is for. -/
def Concerns (r : String) (m : QueueEntry → Prop) : Payload → Prop
  | .created restaurantId e => restaurantId = r ∧ m e
  | .seated queueEntryId restaurantId _ _ _ =>
    Knows m (.ofText queueEntryId) ∧ ∀ q ∈ restaurantId, Uuid.ofText q = .ofText r
  | .skipped queueEntryId restaurantId _ _ _ => Knows m queueEntryId ∧ restaurantId = .ofText r
  | .cancelled queueEntryId restaurantId _ _ _ _ => Knows m queueEntryId ∧ restaurantId = .ofText r
  | .called queueEntryId restaurantId _ _ _ => Knows m queueEntryId ∧ restaurantId = .ofText r
  | .positionUpdated queueEntryId restaurantId _ _ => Knows m queueEntryId ∧ restaurantId = r
  | .positionsUpdated restaurantId updatedEntries =>
    restaurantId = r ∧ ∀ u ∈ updatedEntries, Knows m u.1

/-- The push job is for the party of the row, at its own address. -/
def JobOf (job : PushNotificationJob) (d : QueueEntry) : Prop :=
  d.fid = some job.fid ∧ job.guestName = d.guestName ∧ job.queueEntryId = d.id ∧
    job.restaurantId = d.restaurantId

def TrainingOf (event : MlEtaTrainingEvent) (d : QueueEntry) : Prop :=
  event.queueEntryId = d.id ∧ event.restaurantId = d.restaurantId ∧ event.partySize = d.partySize ∧
    event.joinedAt = d.joinedAt

/-- An execution writes the rows of parties it knows and speaks of no others. -/
def stewardship (r : String) : Protocol Call Answer QueueError (QueueEntry → Prop) where
  allows m
    | .createWithHistory e _ => e.restaurantId = .ofText r
    | .assignTablesWithHistory e _ _ _ | .save e => ∃ d, m d ∧ SameParty d e
    | .updateStatusWithHistory params => ∃ d, m d ∧ SameParty d params.queueEntry
    | .findActiveTableAssignments queueEntryId | .releaseTableAssignments queueEntryId =>
      Knows m (.ofText queueEntryId)
    | .batchUpdatePositions us => ∀ u ∈ us, Knows m u.id
    | .assignTables restaurantId _ | .releaseTables restaurantId _ => restaurantId = r
    | .redisSet key state => ∃ id, Knows m id ∧ key = getKey id.text ∧
        state.queueEntryId = id.text ∧ state.restaurantId = r
    | .redisDel key => ∃ q, Knows m (.ofText q) ∧ key = getKey q
    | .broadcastToRestaurant restaurantId _ data => restaurantId = r ∧ Concerns r m data
    | .sendToTicket ticketId _ data => Knows m (.ofText ticketId) ∧ Concerns r m data
    | .addJob job => ∃ d, m d ∧ JobOf job d
    | .publishToMlEta event => ∃ d, m d ∧ TrainingOf event d
    | _ => True
  expects _
    | .findById q, .ok o => ∀ e ∈ o, e.id = .ofText q
    | .findActiveEntries restaurantId, .ok l => ∀ e ∈ l, e.restaurantId = .ofText restaurantId
    | .createWithHistory e _, .ok d | .assignTablesWithHistory e _ _ _, .ok d => d = e
    | .updateStatusWithHistory params, .ok d => d = params.queueEntry
    | _, _ => True
  next m
    | .findById _, .ok o => fun d => m d ∨ o = some d ∧ d.restaurantId.text = r
    | .findActiveEntries _, .ok l => fun d => m d ∨ d ∈ l ∧ d.restaurantId = .ofText r
    | .createWithHistory e _, .ok _ => fun d => m d ∨ d = e
    | _, _ => m

/-- The calls whose answers teach an execution no row. -/
def Steady : Call → Prop
  | .findById _ | .findActiveEntries _ | .createWithHistory _ _ => False
  | _ => True

theorem steady_next {x : Except QueueError (Answer c)} (hc : Steady c) :
    (stewardship r).next m c x = m := by
  cases c <;> first | exact hc.elim | rfl

abbrev Minded (r : String) (m : QueueEntry → Prop) (c : Call) : Prop :=
  Steady c ∧ (stewardship r).allows m c

/-- The calls that any execution may make at any time. -/
def Idle : Call → Prop
  | .now | .randomUUID | .getRestaurantStatus _ | .checkAvailability _ _ | .predictEta _ _ _
  | .findActiveByPhone _ _ | .findActiveByUserId _ | .getRegistrationMetrics _
  | .countPeopleAheadAtJoin _ _ => True
  | _ => False

theorem idle_minded (hc : Idle c) : Minded r m c := by
  cases c <;> first | exact hc.elim | exact ⟨trivial, trivial⟩

theorem knows_widen (hm : ∀ d, m d → m' d) (h : Knows m id) : Knows m' id := by
  obtain ⟨d, hd, hid⟩ := h
  exact ⟨d, hm d hd, hid⟩

theorem concerns_widen (hm : ∀ d, m d → m' d) (h : Concerns r m data) : Concerns r m' data := by
  cases data with
  | created restaurantId e => exact ⟨h.1, hm e h.2⟩
  | positionsUpdated restaurantId us => exact ⟨h.1, fun u hu => knows_widen hm (h.2 u hu)⟩
  | _ => exact ⟨knows_widen hm h.1, h.2⟩

theorem allows_widen (hm : ∀ d, m d → m' d) (h : (stewardship r).allows m c) :
    (stewardship r).allows m' c := by
  cases c with
  | assignTablesWithHistory | updateStatusWithHistory | save | addJob | publishToMlEta =>
    obtain ⟨d, hd, h⟩ := h
    exact ⟨d, hm d hd, h⟩
  | findActiveTableAssignments | releaseTableAssignments => exact knows_widen hm h
  | batchUpdatePositions => exact fun u hu => knows_widen hm (h u hu)
  | redisSet | redisDel =>
    obtain ⟨q, hq, h⟩ := h
    exact ⟨q, knows_widen hm hq, h⟩
  | broadcastToRestaurant => exact ⟨h.1, concerns_widen hm h.2⟩
  | sendToTicket => exact ⟨knows_widen hm h.1, concerns_widen hm h.2⟩
  | _ => exact h

theorem next_widen {x : Except QueueError (Answer c)} (hm : ∀ d, m d → m' d) {d : QueueEntry}
    (h : (stewardship r).next m c x d) : (stewardship r).next m' c x d := by
  obtain err | a := x
  · cases c <;> exact hm d h
  · cases c with
    | findById | findActiveEntries | createWithHistory => exact h.imp_left (hm d)
    | _ => exact hm d h

abbrev Stewards (r : String) (m : QueueEntry → Prop) (p : UseCase α) : Prop :=
  Follows (stewardship r) (fun _ _ => True) m p

theorem stewards_widen {p : UseCase α} (hm : ∀ d, m d → m' d) (hp : Stewards r m p) :
    Stewards r m' p := by
  induction p generalizing m m' with
  | done a => trivial
  | reject err => trivial
  | await c k ih => exact ⟨allows_widen hm hp.1, fun x hx => ih x (fun _ => next_widen hm) (hp.2 x hx)⟩

theorem next_grows {x : Except QueueError (Answer c)} {d : QueueEntry} (h : m d) :
    (stewardship r).next m c x d := by
  obtain err | a := x
  · cases c <;> exact h
  · cases c with
    | findById | findActiveEntries | createWithHistory => exact .inl h
    | _ => exact h

/-- Nothing that an execution knows is forgotten. -/
theorem follows_growing {p : UseCase α} (hp : Stewards r m p) :
    Follows (stewardship r) (fun m' _ => ∀ d, m d → m' d) m p := by
  induction p generalizing m with
  | done a => exact fun _ h => h
  | reject err => exact fun _ h => h
  | await c k ih =>
    refine ⟨hp.1, fun x hx => follows_mono (fun _ _ h d hd => ?_) (ih x (hp.2 x hx))⟩
    exact h d (next_grows hd)

theorem stewards_bind {p : UseCase α} {f : α → UseCase β} (hp : Stewards r m p)
    (hf : ∀ a, Stewards r m (f a)) : Stewards r m (p >>= f) :=
  follows_bind (follows_growing hp) (fun _ a h => stewards_widen h (hf a)) fun _ _ _ => trivial

/-- A body that learns no row stays with the rows it knows. -/
theorem follows_minded {p : UseCase α} (hp : Issues (Minded r m) p) :
    Follows (stewardship r) (fun m' _ => m' = m) m p :=
  follows_issues hp fun _ hc => ⟨hc.2, fun _ _ => steady_next hc.1⟩

theorem stewards_minded {p : UseCase α} (hp : Issues (Minded r m) p) : Stewards r m p :=
  follows_mono (fun _ _ _ => trivial) (follows_minded hp)

theorem stewards_after {p : UseCase α} {f : α → UseCase β} {R : α → Prop}
    (hp : Issues (Minded r m) p) (hy : Yields R p) (hf : ∀ a, R a → Stewards r m (f a)) :
    Stewards r m (p >>= f) := by
  refine follows_bind (follows_yields (follows_minded hp) hy) (fun m' a h => ?_) fun _ _ _ => trivial
  rw [h.1]
  exact hf a (h.2 a rfl)

theorem stewards_then {p : UseCase α} {f : α → UseCase β} (hp : Issues (Minded r m) p)
    (hf : ∀ a, Stewards r m (f a)) : Stewards r m (p >>= f) :=
  stewards_after hp (yields_any p) fun a _ => hf a

theorem stewards_findOwned {q : String} {f : QueueEntry → UseCase α}
    (hf : ∀ e, e.id = .ofText q → e.restaurantId.text = r → Stewards r (· = e) (f e)) :
    Stewards r m (findOwned r q >>= f) := by
  refine ⟨trivial, fun x hx => ?_⟩
  obtain err | o := x
  · trivial
  cases o with
  | none => trivial
  | some e =>
    change Stewards r _ ((if _ then _ else _) >>= f)
    split
    · trivial
    · rename_i hhome
      refine stewards_widen ?_ (hf e (hx e rfl) (not_not.mp hhome))
      rintro _ rfl
      exact .inr ⟨rfl, not_not.mp hhome⟩

theorem stewards_line {f : List QueueEntry → UseCase α}
    (hf : ∀ l : List QueueEntry, Stewards r (fun d => m d ∨ d ∈ l) (f l)) :
    Stewards r m (ask (.findActiveEntries r) >>= f) := by
  refine ⟨trivial, fun x hx => ?_⟩
  obtain err | l := x
  · trivial
  · exact stewards_widen (fun d hd => hd.imp_right fun hd => ⟨hd, hx d hd⟩) (hf l)

theorem minded_idle {p : UseCase α} (hp : Issues Idle p) : Issues (Minded r m) p :=
  issues_mono (fun _ => idle_minded) hp

theorem idle_seat (e : QueueEntry) : Issues Idle (seat e) := issues_straight (straight_seat trivial e)

theorem idle_skip (e : QueueEntry) : Issues Idle (skip e) := issues_straight (straight_skip trivial e)

theorem idle_cancel (e : QueueEntry) (status : QueueStatus) : Issues Idle (cancel e status) :=
  issues_straight (straight_cancel trivial e status)

theorem idle_updatePosition (e : QueueEntry) (newPosition : Nat) :
    Issues Idle (updatePosition e newPosition) := issues_straight (straight_updatePosition trivial _ _)

theorem idle_ring (e : QueueEntry) : Issues Idle (ring e) := issues_straight (straight_ring trivial e)

theorem idle_requireWaiting {queueEntryId : String} (e : QueueEntry) :
    Issues Idle (requireWaiting queueEntryId e) :=
  issues_straight (straight_requireWaiting e)

theorem idle_orNow (o : Option Time) : Issues Idle (orNow o) := by
  cases o with
  | none => exact issues_call trivial
  | some t => exact issues_pure t

theorem idle_peopleAheadAtJoin (q : String) (joinedAt : Time) :
    Issues Idle (peopleAheadAtJoin q joinedAt) :=
  issues_attempt (issues_bind (issues_call trivial) fun _ => issues_pure _) fun _ => issues_pure _

theorem idle_checkAdmission (input : RegisterQueueInput) : Issues Idle (checkAdmission input) :=
  issues_mono (fun c hc => by cases c <;> first | exact hc.elim | trivial) (issues_checkAdmission input)

theorem minded_removeLiveEntry {q : String} (hq : Knows m (.ofText q)) :
    Issues (Minded r m) (removeLiveEntry q) :=
  issues_attempt (issues_call ⟨trivial, q, hq, rfl⟩) fun _ => issues_pure _

theorem minded_saveLiveEntry {position currentEta : Nat} (hid : Knows m id) :
    Issues (Minded r m) (saveLiveEntry id.text r position currentEta) :=
  issues_attempt (issues_bind (issues_call ⟨trivial, trivial⟩) fun _ =>
    issues_call ⟨trivial, id, hid, rfl, rfl, rfl⟩) fun _ => issues_pure _

theorem minded_batch {us : List PositionUpdate} (hus : ∀ u ∈ us, Knows m u.id) :
    Issues (Minded r m) (Recalculator.batchUpdatePositions us) :=
  issues_batch ⟨trivial, hus⟩

theorem minded_broadcast {event : ServerEvent} (h : Concerns r m data) :
    Issues (Minded r m) (ask (.broadcastToRestaurant r event data)) := issues_call ⟨trivial, rfl, h⟩

theorem minded_send {q : String} {event : ServerEvent} (hq : Knows m (.ofText q))
    (h : Concerns r m data) : Issues (Minded r m) (ask (.sendToTicket q event data)) :=
  issues_call ⟨trivial, hq, h⟩

theorem minded_report {ds : List PositionDelta} (hds : ∀ δ ∈ ds, Knows m δ.id) :
    Issues (Minded r m) (report r ds) := by
  refine issues_bind (issues_gather_mem fun δ hδ => ?_) fun _ =>
    issues_bind (issues_gather_mem fun δ hδ => ?_) fun _ => ?_
  · exact issues_attempt (minded_saveLiveEntry (hds δ hδ)) fun _ => issues_pure _
  · refine issues_attempt (minded_send ?_ ⟨hds δ hδ, rfl⟩) fun _ => issues_pure _
    rw [Uuid.ofText_text]
    exact hds δ hδ
  · refine issues_attempt (minded_broadcast ⟨rfl, fun u hu => ?_⟩) fun _ => issues_pure _
    obtain ⟨δ, hδ, rfl⟩ := List.mem_map.mp hu
    exact hds δ hδ

theorem stewards_recalculate : Stewards r m (recalculate r) := by
  refine stewards_line fun l => stewards_minded ?_
  change Issues _ (if _ then _ else _)
  split
  · exact issues_pure _
  refine issues_bind (issues_gather fun _ => issues_call (idle_minded trivial)) fun etas => ?_
  have hds : ∀ δ ∈ deltas (entryInputs 0 0 l) etas, Knows (fun d => m d ∨ d ∈ l) δ.id := by
    intro δ hδ
    obtain ⟨j, e, n, he, -, -, rfl⟩ := mem_deltas.mp hδ
    exact ⟨e, .inr (List.mem_of_getElem? he), rfl⟩
  change Issues _ (if _ then _ else _)
  split
  · exact issues_pure _
  refine issues_bind (minded_batch fun u hu => ?_) fun _ =>
    issues_bind (minded_report hds) fun _ => issues_pure _
  obtain ⟨δ, hδ, rfl⟩ := List.mem_map.mp hu
  exact hds δ hδ

theorem stewards_closeRanks {q : String} (hq : Knows m (.ofText q)) : Stewards r m (closeRanks q r) :=
  stewards_then (minded_removeLiveEntry hq) fun _ => stewards_recalculate

/-- A transaction on the row of a known party answers with the row it was handed. -/
theorem stewards_update {params : UpdateStatusWithHistoryParams} {f : QueueEntry → UseCase α}
    (hm : m d) (hd : SameParty d params.queueEntry) (hf : Stewards r m (f params.queueEntry)) :
    Stewards r m (ask (.updateStatusWithHistory params) >>= f) := by
  refine ⟨⟨d, hm, hd⟩, fun x hx => ?_⟩
  obtain err | a := x
  · trivial
  · cases hx
    exact hf

theorem stewards_assign {tableIds : List String} {assignedBy : String} {previous : QueueStatus}
    {f : QueueEntry → UseCase α} (hm : m d) (hd : SameParty d e) (hf : Stewards r m (f e)) :
    Stewards r m (ask (.assignTablesWithHistory e tableIds assignedBy previous) >>= f) := by
  refine ⟨⟨d, hm, hd⟩, fun x hx => ?_⟩
  obtain err | a := x
  · trivial
  · cases hx
    exact hf

theorem stewards_create {changedBy : String} {f : QueueEntry → UseCase α}
    (he : e.restaurantId = .ofText r) (hf : Stewards r (fun d => m d ∨ d = e) (f e)) :
    Stewards r m (ask (.createWithHistory e changedBy) >>= f) := by
  refine ⟨he, fun x hx => ?_⟩
  obtain err | a := x
  · trivial
  · cases hx
    exact hf

theorem minded_announce {input : RegisterQueueInput} {position minutes : Nat} (hm : m e)
    (hr : input.restaurantId = r) : Issues (Minded r m) (announce input position minutes e) := by
  subst hr
  refine issues_bind (issues_attempt (minded_saveLiveEntry ⟨e, hm, rfl⟩) fun _ => issues_pure _)
    fun _ => issues_attempt (minded_broadcast ⟨rfl, hm⟩) fun _ => issues_pure _

theorem stewards_registerQueue (input : RegisterQueueInput) :
    Stewards input.restaurantId m (registerQueue input) := by
  have hidle : ∀ {c : Call}, Idle c → Issues (Minded input.restaurantId m) (ask c) :=
    fun hc => issues_call (idle_minded hc)
  refine stewards_then (minded_idle (idle_checkAdmission input)) fun _ =>
    stewards_then (hidle trivial) fun _ => stewards_then (hidle trivial) fun _ =>
    stewards_then (hidle trivial) fun _ => stewards_then (hidle trivial) fun _ => ?_
  refine stewards_create rfl (stewards_minded ?_)
  exact issues_bind (minded_announce (.inr rfl) rfl) fun _ => issues_pure _

section staff

variable {found : QueueEntry} {q : String}

theorem minded_notifySeated {input : SeatPartyInput} (hq : Knows m (.ofText input.queueEntryId))
    (he : Knows m e.id) (hr : e.restaurantId.text = r) (hinput : input.restaurantId = r) :
    Issues (Minded r m) (notifySeated input e) := by
  subst hinput
  have hconcerns : ∀ seatedAt, Concerns input.restaurantId m (.seated e.id.text
      (some e.restaurantId.text) e.status input.tableIds seatedAt) := by
    refine fun _ => ⟨by rwa [Uuid.ofText_text], ?_⟩
    rintro _ ⟨⟩
    rw [hr]
  exact issues_bind (minded_idle (idle_orNow _)) fun _ =>
    issues_bind (minded_broadcast (hconcerns _)) fun _ =>
      issues_bind (minded_send hq (hconcerns _)) fun _ => issues_pure _

theorem stewards_seatParty (input : SeatPartyInput) : Stewards input.restaurantId m (seatParty input) := by
  apply stewards_findOwned
  intro found hid hhome
  refine stewards_after (minded_idle (idle_seat found)) (yields_seat found) fun e he => ?_
  obtain ⟨-, a, b, rfl⟩ := he
  refine stewards_then (issues_call ⟨trivial, rfl⟩) fun _ => stewards_assign rfl rfl ?_
  exact stewards_bind (stewards_closeRanks ⟨found, rfl, hid⟩) fun _ =>
    stewards_minded (minded_notifySeated ⟨found, rfl, hid⟩ ⟨found, rfl, rfl⟩ hhome rfl)

theorem minded_afterAssigning {input : AssignTablesInput} {ahead : Option Nat} {tableIds : List String}
    (hq : Knows m (.ofText input.queueEntryId)) (hm : m found) (he : SameParty found e)
    (hinput : input.restaurantId = r) :
    Issues (Minded r m) (afterAssigning input ahead tableIds e) := by
  subst hinput
  refine issues_bind (issues_attempt (minded_removeLiveEntry hq) fun _ => issues_pure _) fun _ =>
    issues_bind (issues_attempt ?_ fun _ => issues_pure _) fun _ => issues_bind ?_ fun _ =>
      issues_bind (minded_idle (idle_orNow _)) fun _ => issues_pure _
  · refine issues_bind (minded_broadcast ⟨hq, ?_⟩) fun _ => minded_send hq ⟨hq, nofun⟩
    rintro _ ⟨⟩
    rfl
  · cases ahead with
    | none => exact issues_pure _
    | some n =>
      refine issues_bind (minded_idle (idle_orNow _)) fun _ =>
        issues_attempt (issues_call ⟨trivial, found, hm, ?_⟩) fun _ => issues_pure _
      rw [he]
      exact ⟨rfl, rfl, rfl, rfl⟩

theorem stewards_assignTable (input : AssignTablesInput) :
    Stewards input.restaurantId m (assignTable input) := by
  apply stewards_findOwned
  intro found hid hhome
  change Stewards _ _ (if _ then _ else _)
  split
  · trivial
  refine stewards_then (minded_idle (idle_peopleAheadAtJoin _ _)) fun _ =>
    stewards_after (minded_idle (idle_seat found)) (yields_seat found) fun e he => ?_
  obtain ⟨-, a, b, rfl⟩ := he
  refine stewards_then (issues_call ⟨trivial, rfl⟩) fun _ => stewards_assign rfl rfl ?_
  exact stewards_minded (minded_afterAssigning ⟨found, rfl, hid⟩ rfl rfl rfl)

theorem minded_notifySkipped {input : SkipPartyInput} {reason : String} {position : Option Nat}
    (hq : Knows m (.ofText input.queueEntryId)) (he : Knows m e.id) (hr : e.restaurantId = .ofText r)
    (hinput : input.restaurantId = r) :
    Issues (Minded r m) (notifySkipped input e reason position) := by
  subst hinput
  exact issues_bind (minded_broadcast ⟨he, hr⟩) fun _ =>
    issues_bind (minded_send hq ⟨he, hr⟩) fun _ => issues_pure _

theorem home_ofText (h : e.restaurantId.text = r) : e.restaurantId = .ofText r := by
  rw [← h, Uuid.ofText_text]

theorem stewards_skipOut {input : SkipPartyInput} (hm : m found)
    (hid : found.id = .ofText input.queueEntryId) (hhome : found.restaurantId.text = input.restaurantId) :
    Stewards input.restaurantId m (skipOut input found) := by
  refine stewards_after (minded_idle (idle_skip found)) (yields_skip found) fun e he => ?_
  obtain ⟨-, a, rfl⟩ := he
  refine stewards_update hm rfl ?_
  exact stewards_bind (stewards_closeRanks ⟨found, hm, hid⟩) fun _ =>
    stewards_minded (minded_notifySkipped ⟨found, hm, hid⟩ ⟨found, hm, rfl⟩ (home_ofText hhome) rfl)

theorem stewards_reorder {input : SkipPartyInput} {l : List QueueEntry} {i k : Nat} (hm : m found)
    (hid : found.id = .ofText input.queueEntryId) (hhome : found.restaurantId.text = input.restaurantId)
    (hi : i < l.length) (hl : ∀ e ∈ l, m e) :
    Stewards input.restaurantId m (reorder input found k l i) := by
  have hbatch : ∀ u ∈ reorderUpdates (splice l i (targetIndex l i k)), Knows m u.id := by
    intro u hu
    obtain ⟨j, e, he, rfl⟩ := mem_reorderUpdates.mp hu
    exact ⟨e, hl e ((splice_perm (targetIndex_lt hi k)).mem_iff.mp (List.mem_of_getElem? he)), rfl⟩
  refine stewards_after (minded_idle (idle_updatePosition found _)) (yields_updatePosition found _)
    fun e he => stewards_then (minded_batch hbatch) fun _ => ?_
  have hsame : SameParty found e := by
    obtain rfl | ⟨a, rfl⟩ := he <;> rfl
  refine stewards_update hm hsame (stewards_bind stewards_recalculate fun _ => stewards_minded ?_)
  exact minded_notifySkipped ⟨found, hm, hid⟩ ⟨found, hm, hsame.id_eq.symm⟩
    (hsame.restaurantId_eq.trans (home_ofText hhome)) rfl

theorem stewards_skipParty (input : SkipPartyInput) :
    Stewards input.restaurantId m (skipParty input) := by
  apply stewards_findOwned
  intro found hid hhome
  apply stewards_then (minded_idle (idle_requireWaiting found))
  intro _
  split
  swap
  · exact stewards_skipOut rfl hid hhome
  apply stewards_line
  intro l
  split
  · rename_i i hi
    obtain ⟨hlt, -⟩ := List.findIdx?_eq_some_iff_getElem.mp hi
    exact stewards_reorder (.inl rfl) hid hhome hlt fun _ => .inr
  · exact stewards_skipOut (.inl rfl) hid hhome

theorem minded_releaseAssigned {input : CancelQueueEntryInput} {n : Nat}
    (hq : Knows m (.ofText input.queueEntryId)) (hinput : input.restaurantId = r) :
    Issues (Minded r m) (releaseAssigned input n) := by
  refine issues_bind (issues_call ⟨trivial, hq⟩) fun l => ?_
  split
  · exact issues_bind (issues_call ⟨trivial, hinput⟩) fun _ => issues_call ⟨trivial, hq⟩
  · exact issues_pure _

theorem minded_notifyCancelled {input : CancelQueueEntryInput}
    (hq : Knows m (.ofText input.queueEntryId)) (he : Knows m e.id) (hr : e.restaurantId = .ofText r)
    (hinput : input.restaurantId = r) : Issues (Minded r m) (notifyCancelled input e) := by
  subst hinput
  unfold notifyCancelled
  generalize isNoShow input.reason = noShow
  refine issues_bind (minded_idle (idle_orNow _)) fun _ =>
    issues_bind (minded_broadcast ⟨he, hr⟩) fun _ =>
      issues_bind (minded_send hq ⟨he, hr⟩) fun _ => ?_
  cases noShow with
  | true => exact issues_bind (minded_send hq ⟨he, hr⟩) fun _ => issues_pure _
  | false => exact issues_pure _

theorem sameParty_cancelled (e : QueueEntry) (status : QueueStatus) (a b : Time) :
    SameParty e (e.cancelled status a b) := rfl

theorem stewards_cancelQueueEntry (input : CancelQueueEntryInput) :
    Stewards input.restaurantId m (cancelQueueEntry input) := by
  apply stewards_findOwned
  intro found hid hhome
  refine stewards_after (minded_idle (idle_cancel found _)) (yields_cancel found _) fun e he => ?_
  obtain ⟨-, a, b, rfl⟩ := he
  refine stewards_then (minded_releaseAssigned ⟨found, rfl, hid⟩ rfl) fun _ =>
    stewards_update rfl (sameParty_cancelled found _ a b) ?_
  exact stewards_bind (stewards_closeRanks ⟨found, rfl, hid⟩) fun _ =>
    stewards_minded (minded_notifyCancelled ⟨found, rfl, hid⟩ ⟨found, rfl, rfl⟩ (home_ofText hhome) rfl)

theorem minded_dispatch {link : Option String} (hm : m found) (he : SameParty found e) :
    Issues (Minded r m) (dispatch e link) := by
  rw [dispatch]
  split
  · rename_i fid hfid
    split
    · exact issues_pure _
    · refine issues_attempt (issues_bind (issues_call ⟨trivial, found, hm, ?_⟩) fun _ => issues_pure _)
        fun _ => issues_pure _
      rw [he] at hfid ⊢
      exact ⟨hfid, rfl, rfl, rfl⟩
  · exact issues_pure _

theorem stewards_ringCustomer (input : RingCustomerInput) :
    Stewards input.restaurantId m (ringCustomer input) := by
  apply stewards_findOwned
  intro found hid hhome
  refine stewards_after (minded_idle (idle_ring found)) (yields_ring found) fun e he => ?_
  obtain ⟨-, a, b, rfl⟩ := he
  have hknown : ∀ id, id = found.id → Knows (· = found) id := fun _ hid => ⟨found, rfl, hid.symm⟩
  refine stewards_then (issues_call ⟨trivial, found, rfl, rfl⟩) fun _ => stewards_minded ?_
  refine issues_bind (minded_dispatch rfl rfl) fun _ =>
    issues_bind (issues_attempt (minded_send ?_ ⟨?_, ?_⟩) fun _ => issues_pure _) fun _ =>
      issues_bind (minded_idle (idle_orNow _)) fun _ => issues_pure _
  · rw [Uuid.ofText_text]
    exact hknown _ rfl
  · exact hknown _ rfl
  · exact home_ofText hhome

end staff

/-- Every operation is a steward of its restaurant's tickets, whatever it is answered. -/
theorem stewards_execute (op : Operation) : Stewards op.restaurantId (fun _ => False) op.execute := by
  cases op with
  | register input => exact stewards_bind (stewards_registerQueue input) fun _ => trivial
  | seatParty input => exact stewards_bind (stewards_seatParty input) fun _ => trivial
  | assignTable input => exact stewards_bind (stewards_assignTable input) fun _ => trivial
  | skipParty input => exact stewards_bind (stewards_skipParty input) fun _ => trivial
  | cancelQueueEntry input => exact stewards_bind (stewards_cancelQueueEntry input) fun _ => trivial
  | ringCustomer input => exact stewards_bind (stewards_ringCustomer input) fun _ => trivial

end SpotQueue.Stewardship
