import SpotQueue.FrontDoor
import SpotQueue.RestaurantView
import SpotQueue.Awaits.AsyncTurns

namespace SpotQueue.Disclosure

open SpotQueue.Entity SpotQueue.Repository SpotQueue.Environment SpotQueue.UseCases SpotQueue.Queries
open SpotQueue.StaffQueue SpotQueue.StaffApi SpotQueue.HttpApi SpotQueue.StaffIsolation
open SpotQueue.FrontDoor SpotQueue.Registration
open SpotQueue.Awaits.AsyncProgram SpotQueue.Awaits.AsyncProtocol SpotQueue.Awaits.AsyncTurns

variable {E : Env} {platform : Platform} {req : HttpRequest} {w w' v : World} {s t : Store}
  {r : Uuid} {e : QueueEntry} {action : Action} {α : Type}

inductive Response
  | liveQueue (output : GetStaffQueueOutput)
  | eta (output : GetQueueEtaOutput)
  | active (output : GetActiveQueueByUserResponse)
  | status (output : Option GetCustomerQueueStatusOutput)

/-- What a read may be answered with. -/
inductive Responds (E : Env) (w : World) : Action → Except QueueError Response → Prop
  | liveQueue {input x w'} (h : Executes (StaffAnswers E) (getStaffQueue input) w x w') :
      Responds E w (.getStaffQueue input) (x.map .liveQueue)
  | eta {input x w'} (h : Executes (QueryAnswers E E.Answers) (getQueueEta input) w x w') :
      Responds E w (.getEta input) (x.map .eta)
  | active {input x w'}
      (h : Executes (QueryAnswers E E.Answers) (getActiveQueueByUser input) w x w') :
      Responds E w (.getActiveQueueByUser input) (x.map .active)
  | status {userId x w'}
      (h : Executes (QueryAnswers E E.Answers) (getCustomerQueueStatus userId) w x w') :
      Responds E w (.getCustomerQueueStatus userId) (x.map .status)

/-- The rows of a restaurant, each with the assignments it has in force. -/
def listed (r : Uuid) (s : Store) : List (QueueEntry × List TableAssignment) :=
  (s.entries.filter (·.restaurantId = r)).map fun e => (e, s.activeAssignments e.id)

/-- Nothing that the request may be shown tells the two worlds apart: to the staff of
a restaurant its own rows, to a user how long a line is, to a service the tickets of
a user whom it names. -/
structure LooksAlike (platform : Platform) (req : HttpRequest) (w v : World) : Prop where
  clock : w.clock = v.clock
  staff : ∀ param user, Authenticated req.headers param user →
    listed (.ofText user.restaurantId) w.store = listed (.ofText user.restaurantId) v.store
  customer : ∀ user, customerAuthMiddleware req.headers = .ok user → ∀ restaurantId,
    Names platform req restaurantId →
      getActiveQueueMetrics w.store restaurantId = getActiveQueueMetrics v.store restaurantId
  service : platform.s2sAuth req = none → ∀ userId, Names platform req userId →
    w.store.activeByUserId (.ofText userId) = v.store.activeByUserId (.ofText userId)

theorem LooksAlike.symm (h : LooksAlike platform req w v) : LooksAlike platform req v w :=
  ⟨h.clock.symm, fun param user hauth => (h.staff param user hauth).symm,
    fun user huser r hr => (h.customer user huser r hr).symm,
    fun hs2s userId huserId => (h.service hs2s userId huserId).symm⟩

theorem LooksAlike.at (h : LooksAlike platform req w v) (t : Time) :
    LooksAlike platform req (w.at t) (v.at t) :=
  ⟨rfl, h.staff, h.customer, h.service⟩

section listed

theorem listed_entries (h : listed r s = listed r t) :
    s.entries.filter (·.restaurantId = r) = t.entries.filter (·.restaurantId = r) := by
  have hfst : ∀ s, (listed r s).map Prod.fst = s.entries.filter (·.restaurantId = r) := fun s => by
    rw [listed, List.map_map]
    exact List.map_id _
  rw [← hfst, ← hfst, h]

theorem listed_filter (h : listed r s = listed r t) {p : QueueEntry → Prop} [DecidablePred p]
    (hp : ∀ e, p e → e.restaurantId = r) : s.entries.filter p = t.entries.filter p := by
  have hfilter : ∀ l : List QueueEntry, (l.filter (·.restaurantId = r)).filter p = l.filter p := by
    intro l
    rw [List.filter_filter]
    apply List.filter_congr
    intro e _
    rw [← Bool.decide_and, decide_eq_decide]
    exact and_iff_left_of_imp (hp e)
  rw [← hfilter s.entries, ← hfilter t.entries, listed_entries h]

theorem listed_waiting (h : listed r s = listed r t) : s.waiting r = t.waiting r :=
  listed_filter h fun _ he => he.1

theorem listed_assignments (h : listed r s = listed r t) (he : e ∈ s.entries)
    (hr : e.restaurantId = r) : s.activeAssignments e.id = t.activeAssignments e.id := by
  have hmem : (e, s.activeAssignments e.id) ∈ listed r t := by
    rw [← h]
    exact List.mem_map.mpr ⟨e, List.mem_filter.mpr ⟨he, decide_eq_true hr⟩, rfl⟩
  obtain ⟨d, -, hd⟩ := List.mem_map.mp hmem
  obtain ⟨rfl, hassignments⟩ := Prod.mk.inj hd
  exact hassignments.symm

theorem listed_snapshot {filters : StaffQueueQueryFilters} {snapshot : StaffQueueSnapshotResult}
    (h : listed r s = listed r t) (hs : IsSnapshot s r filters snapshot) :
    IsSnapshot t r filters snapshot := by
  have hrows := listed_filter h (p := Selected r filters) fun _ he => he.1
  refine ⟨?_, hrows ▸ hs.rows, hs.sorted, fun item hitem => ?_⟩
  · rw [← listed_waiting h]
    exact hs.totalWaiting
  · have hmem := hs.rows.subset (List.mem_map_of_mem hitem)
    obtain ⟨he, hselected⟩ := List.mem_filter.mp hmem
    have hassignments := listed_assignments h he (of_decide_eq_true hselected).1
    have htable := hs.tables item hitem
    cases hid : item.assignedTableId with
    | none =>
      rw [hid] at htable
      simp only [LatestActiveTable] at htable ⊢
      rwa [← hassignments]
    | some tableId =>
      rw [hid] at htable
      simp only [LatestActiveTable] at htable ⊢
      rwa [← hassignments]

end listed

section answers

/-- The calls a staff request may make. -/
def StaffAsks (req : HttpRequest) : StaffCall → Prop
  | .now => True
  | .getStaffQueueSnapshot restaurantId _ =>
    ∃ param user, Authenticated req.headers param user ∧ restaurantId = user.restaurantId

theorem staffAnswers_alike {c : StaffCall} {x : Except QueueError (StaffAnswer c)}
    (hc : StaffAsks req c) (hw : LooksAlike platform req w v) (h : StaffAnswers E c w x w') :
    ∃ v', StaffAnswers E c v x v' ∧ LooksAlike platform req w' v' := by
  obtain ⟨t, ht, rfl, hx⟩ := h
  refine ⟨v.at t, ⟨t, hw.clock ▸ ht, rfl, ?_⟩, hw.at t⟩
  cases c with
  | now => exact hx
  | getStaffQueueSnapshot restaurantId filters =>
    obtain ⟨param, user, hauth, rfl⟩ := hc
    obtain hrejected | ⟨snapshot, hsnapshot, hok⟩ := hx
    · exact .inl hrejected
    · exact .inr ⟨snapshot, listed_snapshot (hw.staff param user hauth) hsnapshot, hok⟩

/-- The calls the reads of customers and of other services may make. -/
def Asks (platform : Platform) (req : HttpRequest) : QueryCall → Prop
  | .shared c => match c with
    | .now | .getRestaurantStatus _ | .checkAvailability _ _ | .predictEta _ _ _ => True
    | .findActiveByUserId userId => platform.s2sAuth req = none ∧ Names platform req userId
    | _ => False
  | .getActiveQueueMetrics restaurantId =>
    (∃ user, customerAuthMiddleware req.headers = .ok user) ∧ Names platform req restaurantId
  | .findActiveByUserIdAndRestaurantId _ userId =>
    platform.s2sAuth req = none ∧ Names platform req userId

theorem activeByUserIdAndRestaurantId_filter (s : Store) (restaurantId userId : Uuid) :
    activeByUserIdAndRestaurantId s restaurantId userId =
      (s.activeByUserId userId).filter (·.restaurantId = restaurantId) := by
  rw [activeByUserIdAndRestaurantId, Store.activeByUserId, List.filter_filter]
  apply List.filter_congr
  intro e _
  rw [← Bool.decide_and]

theorem queryAnswers_alike {c : QueryCall} {x : Except QueueError (QueryAnswer c)}
    (hc : Asks platform req c) (hw : LooksAlike platform req w v)
    (h : QueryAnswers E E.Answers c w x w') :
    ∃ v', QueryAnswers E E.Answers c v x v' ∧ LooksAlike platform req w' v' := by
  cases c with
  | shared c =>
    obtain ⟨t, ht, hperforms | ⟨hdependency, hfails, hx, rfl⟩⟩ := h
    swap
    · exact ⟨v.at t, ⟨t, hw.clock ▸ ht, .inr ⟨hdependency, hfails, hx, rfl⟩⟩, hw.at t⟩
    cases c with
    | now | getRestaurantStatus | checkAvailability | predictEta =>
      obtain ⟨hx, rfl⟩ := hperforms
      exact ⟨v.at t, ⟨t, hw.clock ▸ ht, .inl ⟨hx, rfl⟩⟩, hw.at t⟩
    | findActiveByUserId userId =>
      obtain ⟨hx, rfl⟩ := hperforms
      have hrows : (w.at t).store.activeByUserId (.ofText userId) =
          (v.at t).store.activeByUserId (.ofText userId) := hw.service hc.1 userId hc.2
      rw [hrows] at hx
      exact ⟨v.at t, ⟨t, hw.clock ▸ ht, .inl ⟨hx, rfl⟩⟩, hw.at t⟩
    | _ => exact hc.elim
  | getActiveQueueMetrics restaurantId =>
    obtain ⟨⟨user, huser⟩, hnames⟩ := hc
    obtain ⟨t, ht, rfl, hx⟩ := h
    refine ⟨v.at t, ⟨t, hw.clock ▸ ht, rfl, ?_⟩, hw.at t⟩
    rwa [← hw.customer user huser restaurantId hnames]
  | findActiveByUserIdAndRestaurantId restaurantId userId =>
    obtain ⟨t, ht, rfl, hx⟩ := h
    refine ⟨v.at t, ⟨t, hw.clock ▸ ht, rfl, ?_⟩, hw.at t⟩
    rw [activeByUserIdAndRestaurantId_filter, hw.service hc.1 userId hc.2,
      ← activeByUserIdAndRestaurantId_filter] at hx
    exact hx

theorem issues_onQuery {Q : QueryCall → Prop} {p : UseCase α}
    (hp : Issues (fun c => Q (.shared c)) p) : Issues Q (onQuery p) :=
  follows_mono (fun _ _ _ => trivial) (follows_expand hp fun _ hc => follows_call hc fun _ _ => rfl)

theorem asks_getQueueEta {user : AuthenticatedCustomer} {input : GetQueueEtaInput}
    (huser : customerAuthMiddleware req.headers = .ok user)
    (hnames : Names platform req input.restaurantId) :
    Issues (Asks platform req) (getQueueEta input) := by
  refine issues_bind (issues_call trivial) fun status =>
    issues_bind (issues_onQuery (issues_validate status)) fun _ =>
    issues_bind (issues_call trivial) fun check => ?_
  change Issues _ (if _ then _ else _)
  split
  · exact issues_throw _
  refine issues_bind (issues_call ⟨⟨user, huser⟩, hnames⟩) fun metrics => ?_
  change Issues _ (if _ then _ else _)
  split
  · exact issues_bind (issues_call trivial) fun _ => issues_pure _
  · exact issues_bind (issues_call trivial) fun _ => issues_bind (issues_call trivial) fun _ =>
      issues_pure _

theorem asks_getActiveQueueByUser {input : GetActiveQueueByUserInput}
    (hs2s : platform.s2sAuth req = none) (hnames : Names platform req input.userId) :
    Issues (Asks platform req) (getActiveQueueByUser input) := by
  refine issues_bind (issues_call ⟨hs2s, hnames⟩) fun found => ?_
  split
  · exact issues_pure _
  · exact issues_pure _

theorem asks_getCustomerQueueStatus {userId : String} (hs2s : platform.s2sAuth req = none)
    (hnames : Names platform req userId) :
    Issues (Asks platform req) (getCustomerQueueStatus userId) := by
  refine issues_bind (issues_call ⟨hs2s, hnames⟩) fun found => ?_
  split
  · exact issues_pure _
  · change Issues _ (if _ then _ else _)
    split
    · exact issues_pure _
    · exact issues_pure _

/-- Whom the sender of a read has shown itself to be. -/
def Admitted (platform : Platform) (req : HttpRequest) : Action → Prop
  | .getStaffQueue input =>
    ∃ param user, Authenticated req.headers param user ∧ input.restaurantId = user.restaurantId
  | .getEta input =>
    (∃ user, customerAuthMiddleware req.headers = .ok user) ∧ Names platform req input.restaurantId
  | .getActiveQueueByUser input => platform.s2sAuth req = none ∧ Names platform req input.userId
  | .getCustomerQueueStatus userId => platform.s2sAuth req = none ∧ Names platform req userId
  | .health | .metrics | .operation _ => True

theorem responds_alike {x : Except QueueError Response} (ha : Admitted platform req action)
    (hw : LooksAlike platform req w v) (h : Responds E w action x) : Responds E v action x := by
  cases h with
  | liveQueue h =>
    obtain ⟨param, user, hauth, hrestaurant⟩ := ha
    have hissues : Issues (StaffAsks req) (getStaffQueue _) :=
      issues_bind (issues_call ⟨param, user, hauth, hrestaurant⟩) fun _ =>
        issues_bind (issues_call trivial) fun _ => issues_pure _
    obtain ⟨_, htraces⟩ := h
    obtain ⟨calls, v', htraces', -⟩ := traces_simulate hissues staffAnswers_alike hw htraces
    exact .liveQueue ⟨calls, htraces'⟩
  | eta h =>
    obtain ⟨⟨user, huser⟩, hnames⟩ := ha
    obtain ⟨_, htraces⟩ := h
    obtain ⟨calls, v', htraces', -⟩ :=
      traces_simulate (asks_getQueueEta huser hnames) queryAnswers_alike hw htraces
    exact .eta ⟨calls, htraces'⟩
  | active h =>
    obtain ⟨_, htraces⟩ := h
    obtain ⟨calls, v', htraces', -⟩ :=
      traces_simulate (asks_getActiveQueueByUser ha.1 ha.2) queryAnswers_alike hw htraces
    exact .active ⟨calls, htraces'⟩
  | status h =>
    obtain ⟨_, htraces⟩ := h
    obtain ⟨calls, v', htraces', -⟩ :=
      traces_simulate (asks_getCustomerQueueStatus ha.1 ha.2) queryAnswers_alike hw htraces
    exact .status ⟨calls, htraces'⟩

end answers

section admitted

theorem handler_admitted {target : StaffTarget} {input : GetStaffQueueInput}
    (huuid : UuidAlphabet platform.zod.isUuid)
    (h : staffQueueChain platform req target = .ok (.getStaffQueue input)) :
    Admitted platform req (.getStaffQueue input) := by
  obtain ⟨route, -, hrouter⟩ := staffQueueChain_ok h
  obtain ⟨user, hauth, hparam, hcontroller⟩ := router_ok hrouter
  cases route with
  | getLiveQueue restaurantId query =>
    cases hcontroller
    exact ⟨_, user, hauth, path_restaurant huuid hauth hparam restaurantId rfl⟩
  | _ =>
    simp only [controller] at hcontroller
    split at hcontroller <;> cases hcontroller

theorem app_admitted (huuid : UuidAlphabet platform.zod.isUuid) (h : app platform req = .ok action) :
    Admitted platform req action := by
  rw [app] at h
  split at h
  · cases h
  · cases h
  · cases h
  rename_i target htarget
  have hreached := router_reached htarget
  have hchain := mapError_ok h
  cases target with
  | health | metrics =>
    cases hchain
    trivial
  | staff target =>
    obtain ⟨handler, hhandler, rfl⟩ := map_ok.mp hchain
    cases handler with
    | getStaffQueue => exact handler_admitted huuid hhandler
    | operation => trivial
  | customer target =>
    obtain ⟨user, huser, h⟩ := bind_ok.mp hchain
    obtain ⟨_, -, h⟩ := bind_ok.mp h
    cases target with
    | getEta =>
      obtain ⟨_, -, h⟩ := bind_ok.mp h
      cases h
      exact ⟨⟨user, huser⟩, hreached⟩
    | joinQueue =>
      obtain ⟨_, -, h⟩ := bind_ok.mp h
      cases h
      trivial
  | internal target =>
    cases target <;>
    · obtain ⟨_, -, h⟩ := bind_ok.mp hchain
      cases h
      exact hreached

end admitted

theorem reads_confined (huuid : UuidAlphabet platform.zod.isUuid) (h : app platform req = .ok action)
    (hw : LooksAlike platform req w v) (x : Except QueueError Response) :
    Responds E w action x ↔ Responds E v action x :=
  ⟨responds_alike (app_admitted huuid h) hw, responds_alike (app_admitted huuid h) hw.symm⟩

section witness

open SpotQueue.Simulation SpotQueue.RestaurantView

/-- The host of restaurant A looks at the small parties of its line. -/
def hostLooks : HttpRequest where
  method := .get
  path := ["staff", "restaurants", RESTAURANT_A]
  headers := ⟨.single "staff", .single "STAFF", .undefined, .single RESTAURANT_A⟩
  query := .object [("partySizeBucket", .string "small")]
  body := none

def listsSmall : Action := .getStaffQueue ⟨RESTAURANT_A, none, some .small⟩

/-- Restaurant B is gone. -/
def withoutB : World := twoRestaurants.commit (view (.ofText RESTAURANT_A) twoRestaurants.store)

theorem withoutB_alike : LooksAlike plainPlatform hostLooks twoRestaurants withoutB where
  clock := rfl
  staff param user hauth := by
    have huser : some RESTAURANT_A = some user.restaurantId := by
      rw [← hauth.restaurant]
      decide
    rw [← Option.some.inj huser]
    decide
  customer user _ restaurantId hnames := by
    obtain ⟨segment, hsegment, hdecode⟩ := hnames
    cases hdecode
    simp only [hostLooks, List.mem_cons, List.not_mem_nil, or_false] at hsegment
    obtain rfl | rfl | rfl := hsegment <;> decide
  service _ userId hnames := by
    obtain ⟨segment, hsegment, hdecode⟩ := hnames
    cases hdecode
    simp only [hostLooks, List.mem_cons, List.not_mem_nil, or_false] at hsegment
    obtain rfl | rfl | rfl := hsegment <;> decide

def snapshotOfA : StaffQueueSnapshotResult := ⟨1, [⟨waitingAt RESTAURANT_A TICKET_A, none⟩]⟩

def lineOfA : GetStaffQueueOutput := ⟨RESTAURANT_A, 1, mapToLiveQueueEntries snapshotOfA.entries 2⟩

theorem snapshotOfA_taken :
    IsSnapshot twoRestaurants.store (.ofText RESTAURANT_A) ⟨some .waiting, some 1, some 2⟩
      snapshotOfA where
  totalWaiting := by decide
  rows := List.Perm.of_eq (by decide)
  sorted := List.pairwise_singleton _ _
  tables item hitem := by
    rw [List.mem_singleton.mp hitem]
    exact List.filter_nil

theorem lineOfA_listed :
    Executes (StaffAnswers smooth.env) (getStaffQueue ⟨RESTAURANT_A, none, some .small⟩)
      twoRestaurants (.ok lineOfA) (twoRestaurants.at 2) :=
  getStaffQueue_executes.mpr ⟨1, rfl, rfl, rfl, snapshotOfA, snapshotOfA_taken, rfl⟩

theorem reads_confined_withoutB :
    withoutB.store.entries ≠ twoRestaurants.store.entries ∧
      Responds smooth.env withoutB listsSmall (.ok (.liveQueue lineOfA)) :=
  ⟨by decide,
    (reads_confined versionedUuid_alphabet rfl withoutB_alike _).mp (.liveQueue lineOfA_listed)⟩

end witness

end SpotQueue.Disclosure
