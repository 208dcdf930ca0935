import SpotQueue.StoreChanges
import Mathlib.Logic.Function.Basic

namespace SpotQueue.TicketViews

open SpotQueue.Entity SpotQueue.Repository SpotQueue.Environment SpotQueue.Recalculator
open SpotQueue.UseCases SpotQueue.Frame SpotQueue.Guards SpotQueue.Line SpotQueue.Recalculation
open SpotQueue.Registration SpotQueue.StoreChanges
open SpotQueue.Awaits.AsyncProgram SpotQueue.Awaits.AsyncProtocol

variable {E : Env} {w w' : World} {α β γ : Type} {id : Uuid} {e : QueueEntry}

/-- What a message in its ticket room makes a subscriber believe about the position. -/
def heard (event : ServerEvent) (data : Payload) (last : Option Nat) : Option Nat :=
  match event, data with
  | .queuePositionUpdated, .positionUpdated _ _ position _ => some position
  | .queueEntrySkipped, .skipped _ _ _ _ position => position
  | .queueEntrySeated, _ | .ticketSeated, _ | .queueEntryCancelled, _ | .queueEntryNoShow, _ => none
  | _, _ => last

def hears (id : Uuid) (last : Option Nat) : Delivery → Option Nat
  | .registered response => if response.queueEntryId = id then some response.position else last
  | .toTicket ticketId event data => if ticketId = id.text then heard event data last else last
  | .toRestaurant _ _ _ => last

/-- What is shown of every ticket: position and estimate of its live entry in
the cache, and the position its subscribers were last told. -/
structure Views where
  cached : Uuid → Option (Option Nat × Option Nat)
  told : Uuid → Option Nat

def views (w : World) : Views where
  cached id := (w.cache (getKey id.text)).map fun live => (some live.position, some live.currentEta)
  told id := w.deliveries.foldl (hears id) none

def Views.cache (v : Views) (id : Uuid) (live : Option (Option Nat × Option Nat)) : Views :=
  { v with cached := Function.update v.cached id live }

def Views.tell (v : Views) (id : Uuid) (position : Option Nat) : Views :=
  { v with told := Function.update v.told id position }

/-- The row is shown as it is stored. -/
structure Shown (v : Views) (e : QueueEntry) : Prop where
  cached : v.cached e.id =
    if e.status = .waiting then some (e.position, e.estimatedWaitMinutes) else none
  told : v.told e.id = e.position

theorem views_still (h : Still E w w') : views w' = views w := by
  simp [views, h.cache, h.deliveries]

theorem views_deliver (w : World) (d : Delivery) :
    views (w.deliver d) = { views w with told := fun id => hears id ((views w).told id) d } := by
  simp [views, World.deliver]

theorem getKey_injective {a b : String} (h : getKey a = getKey b) : a = b := by
  simpa [getKey, String.ext_iff, KEY_PREFIX] using h

theorem views_cache (w : World) (id : Uuid) (live : Option LiveQueueEntryState) :
    views { w with cache := Function.update w.cache (getKey id.text) live } =
      (views w).cache id (live.map fun live => (some live.position, some live.currentEta)) := by
  simp only [views, Views.cache, Views.mk.injEq, and_true]
  funext d
  by_cases hd : d = id
  · subst hd
    simp
  · have hkey : getKey d.text ≠ getKey id.text := fun h =>
      hd (Uuid.text_injective (getKey_injective h))
    simp [hd, hkey]

theorem views_send (w : World) (id : Uuid) (event : ServerEvent) (data : Payload) :
    views (w.deliver (.toTicket id.text event data)) =
      (views w).tell id (heard event data ((views w).told id)) := by
  rw [views_deliver]
  simp only [Views.tell, Views.mk.injEq, true_and]
  funext d
  by_cases hd : d = id
  · subst hd
    simp [hears]
  · have htext : id.text ≠ d.text := fun h => hd (Uuid.text_injective h).symm
    simp [hears, hd, htext]

theorem tell_tell (v : Views) (position position' : Option Nat) :
    (v.tell id position).tell id position' = v.tell id position' := by
  simp [Views.tell]

section reported

variable {ds : List PositionDelta} {d : PositionDelta}

theorem foldl_update_of_not_mem {val : PositionDelta → γ} (h : id ∉ ds.map (·.id)) (f : Uuid → γ) :
    ds.foldl (fun f d => Function.update f d.id (val d)) f id = f id := by
  induction ds generalizing f with
  | nil => rfl
  | cons d ds ih =>
    simp only [List.map_cons, List.mem_cons, not_or] at h
    rw [List.foldl_cons, ih h.2, Function.update_of_ne h.1]

theorem foldl_update_of_mem {val : PositionDelta → γ} (hkey : (ds.map (·.id)).Nodup) (hd : d ∈ ds)
    (f : Uuid → γ) : ds.foldl (fun f d => Function.update f d.id (val d)) f d.id = val d := by
  induction ds generalizing f with
  | nil => cases hd
  | cons c ds ih =>
    rw [List.map_cons, List.nodup_cons] at hkey
    rw [List.foldl_cons]
    obtain rfl | hd := List.mem_cons.mp hd
    · rw [foldl_update_of_not_mem hkey.1, Function.update_self]
    · exact ih hkey.2 hd _

/-- The views after the report of these deltas. -/
def reported (ds : List PositionDelta) (v : Views) : Views where
  cached := ds.foldl (fun f d => Function.update f d.id (some (some d.newPosition, some d.newEta)))
    v.cached
  told := ds.foldl (fun f d => Function.update f d.id (some d.newPosition)) v.told

theorem foldl_cache {val : PositionDelta → Option (Option Nat × Option Nat)} (v : Views) :
    ds.foldl (fun v d => v.cache d.id (val d)) v =
      { v with cached := ds.foldl (fun f d => Function.update f d.id (val d)) v.cached } := by
  induction ds generalizing v with
  | nil => rfl
  | cons d ds ih => exact ih _

theorem foldl_tell {val : PositionDelta → Option Nat} (v : Views) :
    ds.foldl (fun v d => v.tell d.id (val d)) v =
      { v with told := ds.foldl (fun f d => Function.update f d.id (val d)) v.told } := by
  induction ds generalizing v with
  | nil => rfl
  | cons d ds ih => exact ih _

end reported

/-- The calls to other services, which may be rejected where the database, the
cache, the broadcasts and the predictions are not. -/
def Upstream : Call → Prop
  | .getRestaurantStatus _ | .checkAvailability _ _ | .assignTables _ _ | .releaseTables _ _
  | .addJob _ | .publishToMlEta _ => True
  | _ => False

theorem upstream_not_essential (hfails : ∀ c, E.fails c → Upstream c) : ¬ EssentialFails E := by
  rintro ⟨c, hc, hf⟩
  have hup := hfails c hf
  cases c <;> first | exact hc.elim | exact hup.elim

/-- The body is not rejected and turns the views by `F`. -/
def Shows (E : Env) (F : Views → Views) (p : UseCase α) : Prop :=
  ∀ w x w', Executes E.Answers p w x w' → (∃ a, x = .ok a) ∧ views w' = F (views w)

theorem shows_pure (a : α) : Shows E (fun v => v) (pure a) := by
  intro w x w' h
  obtain ⟨rfl, rfl⟩ := executes_pure.mp h
  exact ⟨⟨a, rfl⟩, rfl⟩

theorem shows_bind {F G : Views → Views} {p : UseCase α} {f : α → UseCase β} (hp : Shows E F p)
    (hf : ∀ a, Shows E G (f a)) : Shows E (fun v => G (F v)) (p >>= f) := by
  intro w x w' h
  obtain ⟨a, u, hp', h⟩ | ⟨e, -, hp'⟩ := executes_bind h
  · obtain ⟨hx, hviews⟩ := hf a u x w' h
    exact ⟨hx, hviews.trans (congrArg G (hp _ _ _ hp').2)⟩
  · obtain ⟨⟨a, ha⟩, -⟩ := hp _ _ _ hp'
    cases ha

theorem shows_then {F : Views → Views} {p : UseCase α} {f : α → UseCase β}
    (hp : Shows E (fun v => v) p) (hf : ∀ a, Shows E F (f a)) : Shows E F (p >>= f) :=
  shows_bind hp hf

theorem shows_last {F : Views → Views} {p : UseCase α} {f : α → UseCase β} (hp : Shows E F p)
    (hf : ∀ a, Shows E (fun v => v) (f a)) : Shows E F (p >>= f) :=
  shows_bind (G := fun v => v) hp hf

/-- Nothing is caught where nothing is rejected. -/
theorem shows_attempt {F : Views → Views} {p : UseCase α} {h : QueueError → UseCase α}
    (hp : Shows E F p) : Shows E F (tryCatch p h) := by
  intro w x w' hattempt
  obtain ⟨a, rfl, hp'⟩ | ⟨e, u, hp', -⟩ := executes_attempt hattempt
  · exact hp _ _ _ hp'
  · obtain ⟨⟨a, ha⟩, -⟩ := hp _ _ _ hp'
    cases ha

theorem shows_gather {F : β → Views → Views} {f : β → UseCase γ} (hf : ∀ b, Shows E (F b) (f b))
    (bs : List β) : Shows E (fun v => bs.foldl (fun v b => F b v) v) (gather f bs) := by
  induction bs with
  | nil => exact shows_pure _
  | cons b bs ih => exact shows_bind (hf b) fun c => shows_bind ih fun cs => shows_pure _

theorem shows_still {p : UseCase α} (hp : Issues Reads p) (hresolves : Resolves p) :
    Shows E (fun v => v) p :=
  fun _ _ _ h => ⟨resolves_executes hresolves h, views_still (still_of_issues hp h)⟩

theorem shows_call {c : Call} {F : Views → Views} (hf : ¬ E.fails c)
    (hperforms : ∀ w x w', E.Performs c w x w' → (∃ a, x = .ok a) ∧ views w' = F (views w)) :
    Shows E F (ask c) := by
  intro w x w' h
  obtain ⟨t, -, hp | ⟨-, hfails, -⟩⟩ := executes_call.mp h
  · exact hperforms (w.at t) x w' hp
  · exact (hf hfails).elim

section shows

variable (hfails : ∀ c, E.fails c → Upstream c)

include hfails

theorem shows_now : Shows E (fun v => v) (ask .now) :=
  shows_call (fun h => hfails _ h) fun _ _ _ ⟨hx, hw⟩ => ⟨⟨_, hx⟩, hw ▸ rfl⟩

theorem shows_broadcast (r : String) (event : ServerEvent) (data : Payload) :
    Shows E (fun v => v) (ask (.broadcastToRestaurant r event data)) := by
  refine shows_call (fun h => hfails _ h) ?_
  rintro w x w' ⟨rfl, rfl⟩
  exact ⟨⟨_, rfl⟩, views_deliver _ _⟩

theorem shows_send (id : Uuid) (event : ServerEvent) (data : Payload) :
    Shows E (fun v => v.tell id (heard event data (v.told id)))
      (ask (.sendToTicket id.text event data)) := by
  refine shows_call (fun h => hfails _ h) ?_
  rintro w x w' ⟨rfl, rfl⟩
  exact ⟨⟨_, rfl⟩, views_send _ _ _ _⟩

theorem shows_saveLiveEntry (id : Uuid) (r : String) (position currentEta : Nat) :
    Shows E (fun v => v.cache id (some (some position, some currentEta)))
      (saveLiveEntry id.text r position currentEta) := by
  refine shows_attempt (shows_bind (shows_now hfails) fun t => shows_call (fun h => hfails _ h) ?_)
  rintro w x w' ⟨rfl, rfl⟩
  exact ⟨⟨_, rfl⟩, views_cache _ _ _⟩

theorem shows_removeLiveEntry (id : Uuid) :
    Shows E (fun v => v.cache id none) (removeLiveEntry id.text) := by
  refine shows_attempt (shows_call (fun h => hfails _ h) ?_)
  rintro w x w' ⟨rfl, rfl⟩
  exact ⟨⟨_, rfl⟩, views_cache _ _ _⟩

theorem shows_cacheDelta (r : String) (d : PositionDelta) :
    Shows E (fun v => v.cache d.id (some (some d.newPosition, some d.newEta))) (cacheDelta r d) :=
  shows_attempt (shows_saveLiveEntry hfails _ _ _ _)

theorem shows_notifyDelta (r : String) (d : PositionDelta) :
    Shows E (fun v => v.tell d.id (some d.newPosition)) (notifyDelta r d) :=
  shows_attempt (shows_send hfails _ _ _)

theorem shows_notifyRestaurant (r : String) (ds : List PositionDelta) :
    Shows E (fun v => v) (notifyRestaurant r ds) :=
  shows_attempt (shows_broadcast hfails _ _ _)

theorem shows_report (r : String) (ds : List PositionDelta) : Shows E (reported ds) (report r ds) := by
  have hcache := shows_gather (shows_cacheDelta hfails r) ds
  have hnotify := shows_gather (shows_notifyDelta hfails r) ds
  have hreport := shows_bind hcache fun _ => shows_bind hnotify fun _ =>
    shows_notifyRestaurant hfails r ds
  simp only [foldl_cache, foldl_tell] at hreport
  exact hreport

theorem shows_orNow (o : Option Time) : Shows E (fun v => v) (orNow o) := by
  cases o with
  | none => exact shows_now hfails
  | some t => exact shows_pure t

theorem shows_notifySeated {input : SeatPartyInput} (hid : input.queueEntryId = id.text)
    (e : QueueEntry) : Shows E (fun v => v.tell id none) (notifySeated input e) := by
  rw [notifySeated]
  rw [hid]
  exact shows_then (shows_orNow hfails _) fun _ => shows_then (shows_broadcast hfails _ _ _) fun _ =>
    shows_last (shows_send hfails id _ _) fun _ => shows_pure _

theorem shows_notifySkipped {input : SkipPartyInput} (hid : input.queueEntryId = id.text)
    (e : QueueEntry) (reason : String) (position : Option Nat) :
    Shows E (fun v => v.tell id position) (notifySkipped input e reason position) := by
  rw [notifySkipped]
  rw [hid]
  exact shows_then (shows_broadcast hfails _ _ _) fun _ =>
    shows_last (shows_send hfails id _ _) fun _ => shows_pure _

theorem shows_notifyCancelled {input : CancelQueueEntryInput} (hid : input.queueEntryId = id.text)
    (e : QueueEntry) : Shows E (fun v => v.tell id none) (notifyCancelled input e) := by
  unfold notifyCancelled
  rw [hid]
  generalize isNoShow input.reason = noShow
  refine shows_then (shows_orNow hfails _) fun _ => shows_then (shows_broadcast hfails _ _ _) fun _ => ?_
  cases noShow with
  | false => exact shows_last (shows_send hfails id .queueEntryCancelled _) fun _ => shows_pure _
  | true =>
    have htwice : (fun v : Views => v.tell id none) = fun v => (v.tell id none).tell id none := by
      funext v
      rw [tell_tell]
    rw [htwice]
    exact shows_bind (F := fun v => v.tell id none) (G := fun v => v.tell id none)
      (shows_send hfails id .queueEntryNoShow _) fun _ =>
        shows_last (shows_send hfails id .queueEntryCancelled _) fun _ => shows_pure _

theorem shows_announce (input : RegisterQueueInput) (position minutes : Nat) (e : QueueEntry) :
    Shows E (fun v => v.cache e.id (some (some position, some minutes)))
      (announce input position minutes e) :=
  shows_last (shows_attempt (shows_saveLiveEntry hfails _ _ _ _)) fun _ =>
    shows_attempt (shows_broadcast hfails _ _ _)

theorem shows_publishTraining (e : QueueEntry) (ahead : Option Nat) :
    Shows E (fun v => v) (publishTraining e ahead) := by
  cases ahead with
  | none => exact shows_pure _
  | some n =>
    refine shows_then (shows_orNow hfails _) fun seatedAt => shows_still ?_ ?_
    · exact issues_attempt (issues_call trivial) fun _ => issues_pure _
    · exact resolves_attempt _ fun _ => resolves_pure _

theorem shows_afterAssigning {input : AssignTablesInput} (hid : input.queueEntryId = id.text)
    (ahead : Option Nat) (tableIds : List String) (e : QueueEntry) :
    Shows E (fun v => (v.cache id none).tell id none) (afterAssigning input ahead tableIds e) := by
  unfold afterAssigning announceSeated
  rw [hid]
  refine shows_bind (F := fun v => v.cache id none) (G := fun v => v.tell id none)
    (shows_attempt (shows_removeLiveEntry hfails id)) fun _ => shows_last ?_ fun _ =>
      shows_then (shows_publishTraining hfails _ _) fun _ =>
        shows_then (shows_orNow hfails _) fun _ => shows_pure _
  exact shows_attempt (shows_then (shows_broadcast hfails _ _ _) fun _ =>
    shows_send hfails id .ticketSeated _)

theorem shows_notifyRung (e : QueueEntry) (link : Option String) :
    Shows E (fun v => v) (notifyRung e link) := by
  have hdispatch : Shows E (fun v => v) (dispatch e link) := by
    rw [dispatch]
    split
    · split
      · exact shows_pure _
      · exact shows_still (issues_attempt (issues_bind (issues_call trivial) fun _ => issues_pure _)
          fun _ => issues_pure _) (resolves_attempt _ fun _ => resolves_pure _)
    · exact shows_pure _
  refine shows_then hdispatch fun _ => shows_then (shows_attempt ?_) fun _ =>
    shows_then (shows_orNow hfails _) fun _ => shows_pure _
  have hcalled := shows_send hfails e.id .ticketCalled
    (.called e.id e.restaurantId e.ringCount e.lastRingedAt link)
  simpa [heard, Views.tell] using hcalled

end shows

end SpotQueue.TicketViews
