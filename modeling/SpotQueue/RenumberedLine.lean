import SpotQueue.SettledRun

namespace SpotQueue.RenumberedLine

open SpotQueue.Entity SpotQueue.Repository SpotQueue.Environment SpotQueue.Recalculator
open SpotQueue.UseCases SpotQueue.Frame SpotQueue.Guards SpotQueue.Line SpotQueue.Recalculation
open SpotQueue.Seating SpotQueue.Simulation SpotQueue.SettledLine SpotQueue.SettledRun
open SpotQueue.Awaits.AsyncProgram SpotQueue.Awaits.AsyncProtocol

variable {E : Env} {w u w' : World} {q : String} {r : Uuid} {s s' : Store} {l : List QueueEntry}
  {e : QueueEntry} {etas : List Nat} {calls pre post : Calls} {α β : Type}
  {f : Uuid → Nat → Nat → Nat} {ds : List PositionDelta} {d : PositionDelta}

/-- What the calls of one kind were about, in the order they were made. -/
def asked (g : Call → Option β) (calls : Calls) : List β := calls.filterMap fun ev => g ev.call

def cacheWrite : Call → Option (String × LiveQueueEntryState)
  | .redisSet key live => some (key, live)
  | _ => none

def ticketMessage : Call → Option (String × ServerEvent × Payload)
  | .sendToTicket ticketId event data => some (ticketId, event, data)
  | _ => none

def restaurantMessage : Call → Option (String × ServerEvent × Payload)
  | .broadcastToRestaurant restaurantId event data => some (restaurantId, event, data)
  | _ => none

/-- A row that stands elsewhere, or is predicted another wait, than it says. -/
def change (f : Uuid → Nat → Nat → Nat) (r : Uuid) (l : List QueueEntry) (j : Nat) (e : QueueEntry) :
    Option (Uuid × Nat × Nat) :=
  if e.position ≠ some (j + 1) ∨
      e.estimatedWaitMinutes ≠ some (f r (sumPartySize (l.take j)) e.partySize) then
    some (e.id, j + 1, f r (sumPartySize (l.take j)) e.partySize)
  else none

/-- The rows of a line that differ from their place and prediction, with what they are to say. -/
def changes (f : Uuid → Nat → Nat → Nat) (r : Uuid) (l : List QueueEntry) : List (Uuid × Nat × Nat) :=
  (l.mapIdx (change f r l)).filterMap id

/-- The line `l` of `s` carries its places and predictions in `s'`, and nothing else has changed. -/
structure Renewed (f : Uuid → Nat → Nat → Nat) (r : Uuid) (l : List QueueEntry) (s s' : Store) : Prop where
  rows : ∃ g : QueueEntry → QueueEntry, s'.entries = s.entries.map g ∧
    (∀ j e, l[j]? = some e → ∃ t, g e =
      { e with
        position := some (j + 1)
        estimatedWaitMinutes := some (f r (sumPartySize (l.take j)) e.partySize)
        updatedAt := t }) ∧
    (∀ e ∈ s.entries, e ∉ l → g e = e) ∧
    ∀ e ∈ s.entries, e.id ∉ (changes f r l).map (·.1) → g e = e
  assignments : s'.assignments = s.assignments
  history : s'.history = s.history

/-- The cache, the tickets and the restaurant are told exactly these rows, in this order. -/
structure Reported (q : String) (cs : List (Uuid × Nat × Nat)) (calls : Calls) : Prop where
  cached : List.Forall₂ (fun c write => ∃ t, write =
    (getKey c.1.text, ⟨c.1.text, q, c.2.1, c.2.2, t⟩)) cs (asked cacheWrite calls)
  told : asked ticketMessage calls = cs.map fun c =>
    (c.1.text, .queuePositionUpdated, .positionUpdated c.1 q c.2.1 c.2.2)
  broadcast : asked restaurantMessage calls =
    if cs = [] then [] else [(q, .queuePositionUpdated, .positionsUpdated q cs)]

theorem asked_append (g : Call → Option β) (pre post : Calls) :
    asked g (pre ++ post) = asked g pre ++ asked g post := List.filterMap_append

theorem asked_none {g : Call → Option β} (h : ∀ ev ∈ calls, g ev.call = none) : asked g calls = [] := by
  rw [asked, List.filterMap_eq_nil_iff]
  exact h

theorem asked_calls {g : Call → Option β} {cs : List Call} (h : calls.map (·.call) = cs) :
    asked g calls = cs.filterMap g := by
  rw [← h, List.filterMap_map]
  rfl

/-- What a gathering asked, from what each of its bodies asked. -/
theorem asked_flatten {γ : Type} {g : Call → Option β} {R : γ → β → Prop} {S : γ → Calls → Prop}
    (hS : ∀ c tr, S c tr → ∃ b, R c b ∧ asked g tr = [b]) {cs : List γ} {trs : List Calls}
    (h : List.Forall₂ S cs trs) : List.Forall₂ R cs (asked g trs.flatten) := by
  induction h with
  | nil => exact .nil
  | cons hfirst _ ih =>
    obtain ⟨b, hb, htr⟩ := hS _ _ hfirst
    rw [List.flatten_cons, asked_append, htr]
    exact .cons hb ih

theorem asked_flatten_none {γ : Type} {g : Call → Option β} {S : γ → Calls → Prop}
    (hS : ∀ c tr, S c tr → asked g tr = []) {cs : List γ} {trs : List Calls}
    (h : List.Forall₂ S cs trs) : asked g trs.flatten = [] := by
  induction h with
  | nil => rfl
  | cons hfirst _ ih => rw [List.flatten_cons, asked_append, hS _ _ hfirst, ih, List.nil_append]

theorem resolves_saveLiveEntry (id r : String) (position eta : Nat) :
    Resolves (saveLiveEntry id r position eta) :=
  resolves_attempt _ fun _ => resolves_pure _

theorem resolves_cacheDelta (q : String) (d : PositionDelta) : Resolves (cacheDelta q d) :=
  resolves_attempt _ fun _ => resolves_pure _

theorem resolves_notifyDelta (q : String) (d : PositionDelta) : Resolves (notifyDelta q d) :=
  resolves_attempt _ fun _ => resolves_pure _

theorem traces_resolves {p : UseCase α} {x : Except QueueError α} (hp : Resolves p)
    (h : Traces E.Answers p w calls x w') : ∃ a, x = .ok a :=
  resolves_executes hp ⟨calls, h⟩

/-- The cache is written once, whether or not it takes the write. -/
theorem saveLiveEntry_traces {id r : String} {position eta : Nat} {x : Except QueueError Unit}
    (h : Traces E.Answers (saveLiveEntry id r position eta) w calls x w') :
    ∃ t, calls.map (·.call) = [.now, .redisSet (getKey id) ⟨id, r, position, eta, t⟩] := by
  have hbody : ∀ {x calls v}, Traces E.Answers (do
      let updatedAt ← ask .now
      ask (.redisSet (getKey id) ⟨id, r, position, eta, updatedAt⟩)) w calls x v →
      ∃ t, calls.map (·.call) = [.now, .redisSet (getKey id) ⟨id, r, position, eta, t⟩] := by
    intro x calls v h
    obtain ⟨t, u, rest, rfl, -, h⟩ | ⟨e, -, -, hnow⟩ := traces_call_bind h
    · obtain ⟨-, rfl⟩ := traces_call h
      exact ⟨t, rfl⟩
    · cases (now_answers hnow).1
  obtain ⟨a, -, h⟩ | ⟨e, u, pre, post, rfl, hfailed, h⟩ := traces_attempt h
  · exact hbody h
  · cases h
    rw [List.append_nil]
    exact hbody hfailed

theorem cacheDelta_traces {x : Except QueueError Unit}
    (h : Traces E.Answers (cacheDelta q d) w calls x w') :
    ∃ t, calls.map (·.call) = [.now, .redisSet (getKey d.id.text)
      ⟨d.id.text, q, d.newPosition, d.newEta, t⟩] := by
  obtain ⟨a, -, h⟩ | ⟨e, u, pre, post, -, hfailed, -⟩ := traces_attempt h
  · exact saveLiveEntry_traces h
  · obtain ⟨a, ha⟩ := traces_resolves (resolves_saveLiveEntry _ _ _ _) hfailed
    cases ha

/-- A message is sent once, whether or not it gets through. -/
theorem attempt_call_traces {c : Call} {x : Except QueueError (Answer c)} {a : Answer c}
    (h : Traces E.Answers (tryCatch (ask c) fun _ => pure a) w calls x w') :
    calls.map (·.call) = [c] := by
  obtain ⟨b, -, hsent⟩ | ⟨e, u, pre, post, rfl, hfailed, hrest⟩ := traces_attempt h
  · obtain ⟨-, rfl⟩ := traces_call hsent
    rfl
  · obtain ⟨-, rfl⟩ := traces_call hfailed
    cases hrest
    rfl

def PositionDelta.change (d : PositionDelta) : Uuid × Nat × Nat := (d.id, d.newPosition, d.newEta)

theorem notifyDelta_traces {x : Except QueueError Unit}
    (h : Traces E.Answers (notifyDelta q d) w calls x w') :
    calls.map (·.call) = [.sendToTicket d.id.text .queuePositionUpdated
      (.positionUpdated d.id q d.newPosition d.newEta)] :=
  attempt_call_traces h

theorem notifyRestaurant_traces {x : Except QueueError Unit}
    (h : Traces E.Answers (notifyRestaurant q ds) w calls x w') :
    calls.map (·.call) = [.broadcastToRestaurant q .queuePositionUpdated
      (.positionsUpdated q (ds.map PositionDelta.change))] :=
  attempt_call_traces h

theorem cacheDeltas_traces {x : Except QueueError (List Unit)}
    (h : Traces E.Answers (gather (cacheDelta q) ds) w calls x w') :
    ∃ trs, calls = trs.flatten ∧ List.Forall₂ (fun d tr => ∃ t, tr.map (·.call) =
      [.now, .redisSet (getKey d.id.text) ⟨d.id.text, q, d.newPosition, d.newEta, t⟩]) ds trs :=
  traces_gather (f := cacheDelta q) (fun d _ _ _ _ h =>
    ⟨cacheDelta_traces h, traces_resolves (resolves_cacheDelta q d) h⟩) h

theorem notifyDeltas_traces {x : Except QueueError (List Unit)}
    (h : Traces E.Answers (gather (notifyDelta q) ds) w calls x w') :
    ∃ trs, calls = trs.flatten ∧ List.Forall₂ (fun d tr => tr.map (·.call) =
      [.sendToTicket d.id.text .queuePositionUpdated
        (.positionUpdated d.id q d.newPosition d.newEta)]) ds trs :=
  traces_gather (f := notifyDelta q) (fun d _ _ _ _ h =>
    ⟨notifyDelta_traces h, traces_resolves (resolves_notifyDelta q d) h⟩) h

/-- The calls of a report: one round of cache writes, one of messages, one broadcast. -/
theorem report_traces {x : Except QueueError Unit} (h : Traces E.Answers (report q ds) w calls x w') :
    ∃ tr₁ tr₂ tr₃ u v x₁ x₂, calls = tr₁ ++ (tr₂ ++ tr₃) ∧
      Traces E.Answers (gather (cacheDelta q) ds) w tr₁ x₁ u ∧
      Traces E.Answers (gather (notifyDelta q) ds) u tr₂ x₂ v ∧
      Traces E.Answers (notifyRestaurant q ds) v tr₃ x w' := by
  have hcaches : Resolves (gather (cacheDelta q) ds) := resolves_gather (resolves_cacheDelta q)
  have hnotifies : Resolves (gather (notifyDelta q) ds) := resolves_gather (resolves_notifyDelta q)
  obtain ⟨_, u, tr₁, rest, rfl, hcache, hnotified⟩ | ⟨e, -, hcache⟩ := traces_bind h
  swap
  · obtain ⟨a, ha⟩ := traces_resolves hcaches hcache
    cases ha
  obtain ⟨_, v, tr₂, tr₃, rfl, hnotify, hlast⟩ | ⟨e, -, hnotify⟩ := traces_bind hnotified
  swap
  · obtain ⟨a, ha⟩ := traces_resolves hnotifies hnotify
    cases ha
  exact ⟨tr₁, tr₂, tr₃, u, v, _, _, rfl, hcache, hnotify, hlast⟩

theorem report_reported {x : Except QueueError Unit} (hds : ds ≠ [])
    (h : Traces E.Answers (report q ds) w calls x w') :
    Reported q (ds.map PositionDelta.change) calls := by
  obtain ⟨tr₁, tr₂, tr₃, u, v, x₁, x₂, rfl, hcache, hnotify, hlast⟩ := report_traces h
  obtain ⟨trs₁, rfl, hcached⟩ := cacheDeltas_traces hcache
  obtain ⟨trs₂, rfl, htold⟩ := notifyDeltas_traces hnotify
  have hbroadcast := notifyRestaurant_traces hlast
  refine ⟨?_, ?_, ?_⟩
  · have htold : asked cacheWrite trs₂.flatten = [] :=
      asked_flatten_none (fun d tr h => asked_calls h) htold
    have hlast : asked cacheWrite tr₃ = [] := asked_calls hbroadcast
    rw [asked_append, asked_append, htold, hlast, List.append_nil, List.append_nil,
      List.forall₂_map_left_iff]
    exact asked_flatten (fun d tr ⟨t, h⟩ => ⟨_, ⟨t, rfl⟩, asked_calls h⟩) hcached
  · have hcached : asked ticketMessage trs₁.flatten = [] :=
      asked_flatten_none (fun d tr ⟨t, h⟩ => asked_calls h) hcached
    have hlast : asked ticketMessage tr₃ = [] := asked_calls hbroadcast
    have hmessages : List.Forall₂ (fun d message => (d.id.text, ServerEvent.queuePositionUpdated,
        Payload.positionUpdated d.id q d.newPosition d.newEta) = message) ds
        (asked ticketMessage trs₂.flatten) :=
      asked_flatten (fun d tr h => ⟨_, rfl, asked_calls h⟩) htold
    rw [← List.forall₂_map_left_iff, List.forall₂_eq_eq_eq] at hmessages
    rw [asked_append, asked_append, hcached, hlast, List.nil_append, List.append_nil, ← hmessages,
      List.map_map]
    rfl
  · have hcached : asked restaurantMessage trs₁.flatten = [] :=
      asked_flatten_none (fun d tr ⟨t, h⟩ => asked_calls h) hcached
    have htold : asked restaurantMessage trs₂.flatten = [] :=
      asked_flatten_none (fun d tr h => asked_calls h) htold
    have hne : ds.map PositionDelta.change ≠ [] := by simpa using hds
    rw [asked_append, asked_append, hcached, htold, List.nil_append, List.nil_append, if_neg hne]
    exact asked_calls hbroadcast

theorem silent {c : Call} (hc : ¬ SideChannel c) :
    cacheWrite c = none ∧ ticketMessage c = none ∧ restaurantMessage c = none := by
  cases c <;> first | exact ⟨rfl, rfl, rfl⟩ | exact (hc trivial).elim

theorem reported_append {cs : List (Uuid × Nat × Nat)} (hpre : ∀ ev ∈ pre, ¬ SideChannel ev.call)
    (h : Reported q cs post) : Reported q cs (pre ++ post) := by
  refine ⟨?_, ?_, ?_⟩
  · rw [asked_append, asked_none fun ev hev => (silent (hpre ev hev)).1]
    exact h.cached
  · rw [asked_append, asked_none fun ev hev => (silent (hpre ev hev)).2.1]
    exact h.told
  · rw [asked_append, asked_none fun ev hev => (silent (hpre ev hev)).2.2]
    exact h.broadcast

theorem reported_nil (h : ∀ ev ∈ calls, ¬ SideChannel ev.call) : Reported q [] calls := by
  have hnothing : Reported q [] ([] : Calls) := ⟨.nil, rfl, rfl⟩
  simpa using reported_append h hnothing

/-- The two things a recalculation asks before it knows whether it has anything to write. -/
def Consults : Call → Prop
  | .findActiveEntries _ | .predictEta _ _ _ => True
  | _ => False

theorem consults_quiet {c : Call} (hc : Consults c) : ¬ DatabaseWrite c ∧ ¬ SideChannel c := by
  cases c <;> first | exact ⟨id, id⟩ | exact hc.elim

/-- What a recalculation that was not rejected read, wrote, reported and returned. -/
structure RecalculateTrace (E : Env) (q : String) (w : World) (calls : Calls)
    (x : Except QueueError PositionRecalculationResult) (w' : World) (l : List QueueEntry)
    (etas : List Nat) : Prop where
  read : lineAnswered calls = some l
  line : IsLine w.store (.ofText q) l
  predicted : EtasOf E q l etas
  result : x = .ok ⟨(deltas (entryInputs 0 0 l) etas).length,
    (deltas (entryInputs 0 0 l) etas).map (·.id)⟩
  store : ∃ t, w'.store = w.store.updatePositions (recalculation l etas) t
  reported : Reported q ((deltas (entryInputs 0 0 l) etas).map PositionDelta.change) calls
  idle : deltas (entryInputs 0 0 l) etas = [] → ∀ ev ∈ calls, Consults ev.call

theorem recalculateTrace_idle {x : Except QueueError PositionRecalculationResult}
    (hread : lineAnswered calls = some l) (hline : IsLine w.store (.ofText q) l)
    (hetas : EtasOf E q l etas) (hnone : deltas (entryInputs 0 0 l) etas = [])
    (hcalls : ∀ ev ∈ calls, Consults ev.call) (hx : x = .ok ⟨0, []⟩) (hstore : w'.store = w.store) :
    RecalculateTrace E q w calls x w' l etas := by
  refine ⟨hread, hline, hetas, ?_, ⟨w.clock, ?_⟩, ?_, fun _ => hcalls⟩
  · rw [hx, hnone]
    rfl
  · rw [hstore, recalculation, hnone, List.map_nil, updatePositions_nil]
  · rw [hnone]
    exact reported_nil fun ev hev => (consults_quiet (hcalls ev hev)).2

theorem recalculate_traces {x : Except QueueError PositionRecalculationResult}
    (hfails : ¬ EssentialFails E) (hrec : Traces E.Answers (recalculate q) w calls x w') :
    ∃ l etas, RecalculateTrace E q w calls x w' l etas := by
  obtain ⟨l, u, rest, rfl, hl, h⟩ | ⟨e, rfl, rfl, he⟩ := traces_call_bind hrec
  swap
  · cases recalculate_executes ⟨_, hrec⟩ with
    | rejected hf => exact (hfails hf).elim
  have hwu := answers_still (c := .findActiveEntries _) trivial hl
  obtain ⟨t, -, ⟨l', hline, hl'⟩, -⟩ := answers_ok hl
  cases hl'
  change IsLine w.store (.ofText q) l at hline
  change Traces _ (if _ then _ else _) _ _ _ _ at h
  split at h
  · rename_i hempty
    obtain rfl := List.isEmpty_iff.mp hempty
    cases h
    have hetas : EtasOf E q [] [] := .nil
    exact ⟨[], [], recalculateTrace_idle rfl hline hetas rfl (by simp [Consults]) rfl hwu.store⟩
  obtain ⟨etas, v, reads, rest, rfl, hpredict, hpredicted⟩ | ⟨e, rfl, he⟩ := traces_bind h
  swap
  · exact (hfails (predictEtas_rejected ⟨_, he⟩)).elim
  have hreads : ∀ ev ∈ reads, Consults ev.call :=
    issues_traces (p := predictEtas q _) (issues_gather fun _ => issues_call trivial) hpredict
  have hetas := predictEtas_executes ⟨_, hpredict⟩
  have hwv := still_trans hwu (still_of_issues (issues_predictEtas _) ⟨_, hpredict⟩)
  have hconsults : ∀ ev ∈ (⟨w, .findActiveEntries q, .ok l, u⟩ :: reads : Calls), Consults ev.call :=
    List.forall_mem_cons.mpr ⟨trivial, hreads⟩
  change Traces _ (if _ then _ else _) _ _ _ _ at hpredicted
  split at hpredicted
  · rename_i hempty
    cases hpredicted
    rw [List.append_nil]
    exact ⟨l, etas, recalculateTrace_idle rfl hline hetas (List.isEmpty_iff.mp hempty) hconsults rfl
      hwv.store⟩
  rename_i hempty
  have hsome : deltas (entryInputs 0 0 l) etas ≠ [] := hempty ∘ List.isEmpty_iff.mpr
  have hus : (deltas (entryInputs 0 0 l) etas).map (·.update) ≠ [] := by simpa using hsome
  obtain ⟨_, y, batch, rest, rfl, hbatch, hbatched⟩ | ⟨e, -, he⟩ := traces_bind hpredicted
  swap
  · obtain ⟨d, -, -, hf⟩ | ⟨y, hy, -⟩ := batchUpdatePositions_executes hus ⟨_, he⟩
    · exact (hfails (hf (hwv.store ▸ recalculation_stored hline etas))).elim
    · cases hy
  obtain ⟨d, hd, -⟩ | ⟨z, -, hz, rfl⟩ := batchUpdatePositions_executes hus ⟨_, hbatch⟩
  · cases hd
  obtain ⟨_, y, told, rest, rfl, hreport, hreported⟩ | ⟨e, -, he⟩ := traces_bind hbatched
  swap
  · obtain ⟨a, ha⟩ := traces_resolves (resolves_report _ _) he
    cases ha
  cases hreported
  have hsilent : ∀ ev ∈ batch, ¬ SideChannel ev.call := by
    rw [Recalculator.batchUpdatePositions] at hbatch
    rw [if_neg (by simpa using hus)] at hbatch
    obtain ⟨-, rfl⟩ := traces_call hbatch
    simp [SideChannel]
  refine ⟨l, etas, rfl, hline, hetas, rfl, ⟨z.clock, ?_⟩, ?_, fun hnone => (hsome hnone).elim⟩
  · rw [(calm_of_issues (issues_report _ _) ⟨_, hreport⟩).store]
    change v.store.updatePositions _ _ = _
    rw [hwv.store]
    rfl
  · have hreported := reported_append hsilent (report_reported hsome hreport)
    rw [List.append_nil]
    exact reported_append (fun ev hev => (consults_quiet (hconsults ev hev)).2) hreported

section predicted

variable (heta : ∀ r ahead n m, E.eta r ahead n m → m = f r ahead n)

include heta

theorem deltas_changes (hetas : EtasOf E q l etas) :
    (deltas (entryInputs 0 0 l) etas).map PositionDelta.change = changes f (.ofText q) l := by
  have hrows : ((entryInputs 0 0 l).zip etas).map (fun p => (delta p.1 p.2).map PositionDelta.change) =
      l.mapIdx (change f (.ofText q) l) := by
    apply List.ext_getElem?
    intro j
    rw [List.getElem?_map, List.getElem?_mapIdx]
    cases hj : l[j]? with
    | none =>
      have hpast : ((entryInputs 0 0 l).zip etas).length ≤ j := by
        simpa [etasOf_length hetas] using hj
      rw [List.getElem?_eq_none hpast]
      rfl
    | some e =>
      have hlt : j < etas.length := etasOf_length hetas ▸ (List.getElem?_eq_some_iff.mp hj).1
      have hm : etas[j]? = some etas[j] := List.getElem?_eq_getElem hlt
      have hin : (entryInputs 0 0 l)[j]? = some ⟨e, j + 1, sumPartySize (l.take j)⟩ := by
        simp [entryInputs_getElem?, hj]
      have hpair : ((entryInputs 0 0 l).zip etas)[j]? =
          some (⟨e, j + 1, sumPartySize (l.take j)⟩, etas[j]) :=
        List.getElem?_zip_eq_some.mpr ⟨hin, hm⟩
      rw [hpair, heta _ _ _ _ (etasOf_getElem? hetas hj hm)]
      simp only [Option.map_some, delta, change]
      split <;> rfl
  rw [deltas, List.map_filterMap, changes, ← hrows, List.filterMap_map]
  rfl

theorem recalculation_changes (hetas : EtasOf E q l etas) :
    (recalculation l etas).map (·.id) = (changes f (.ofText q) l).map (·.1) := by
  rw [← deltas_changes heta hetas, recalculation, List.map_map, List.map_map]
  rfl

theorem changes_nodup (hline : IsLine s (.ofText q) l) (hetas : EtasOf E q l etas) :
    ((changes f (.ofText q) l).map (·.1)).Nodup := by
  rw [← recalculation_changes heta hetas]
  exact (isLine_nodup hline).sublist (recalculation_ids l etas)

theorem renewed_recalculation {t : Time} (hline : IsLine s (.ofText q) l)
    (hetas : EtasOf E q l etas) :
    Renewed f (.ofText q) l s (s.updatePositions (recalculation l etas) t) := by
  refine ⟨⟨_, rfl, fun j e hj => ?_, fun e he hout => ?_, fun e he hid => ?_⟩, rfl, rfl⟩
  · obtain ⟨m, u, hm, hrow⟩ := renumbered_row (t := t) hline (etasOf_length hetas) hj
    exact ⟨u, by rw [hrow, heta _ _ _ _ (etasOf_getElem? hetas hj hm)]⟩
  · exact recalculated_other fun hid => hout (isLine_mem_of_id hline he hid)
  · rw [← recalculation_changes heta hetas] at hid
    exact foldl_applyUpdate_of_not_mem hid

end predicted

/-- A recalculation writes and reports what its line shows wrong, once and in order;
the next one finds nothing. -/
theorem recalculate_exact {result : Except QueueError PositionRecalculationResult}
    (heta : ∀ r ahead n m, E.eta r ahead n m → m = f r ahead n)
    (hok : ∀ ev ∈ calls, ∀ e, ev.answer = .error e → SideChannel ev.call)
    (h : Traces E.Answers (recalculate q) w calls result w') :
    ∃ l, lineAnswered calls = some l ∧ IsLine w.store (.ofText q) l ∧
      Renewed f (.ofText q) l w.store w'.store ∧
      result = .ok ⟨(changes f (.ofText q) l).length, (changes f (.ofText q) l).map (·.1)⟩ ∧
      ((changes f (.ofText q) l).map (·.1)).Nodup ∧ Reported q (changes f (.ofText q) l) calls ∧
      ∀ v calls₂ result₂ v', v.store = w'.store →
        (∀ ev ∈ calls₂, ∀ e, ev.answer = .error e → SideChannel ev.call) →
        Traces E.Answers (recalculate q) v calls₂ result₂ v' →
        result₂ = .ok ⟨0, []⟩ ∧ v'.store = v.store ∧
          ∀ ev ∈ calls₂, ¬ DatabaseWrite ev.call ∧ ¬ SideChannel ev.call := by
  have hessential : ¬ EssentialFails { E with fails := SideChannel } :=
    not_essentialFails fun _ => id
  obtain ⟨l, etas, htrace⟩ := recalculate_traces hessential (traces_fails hok h)
  obtain ⟨t, hstore⟩ := htrace.store
  have hchanges := deltas_changes heta htrace.predicted
  refine ⟨l, htrace.read, htrace.line, ?_, ?_, changes_nodup heta htrace.line htrace.predicted, ?_, ?_⟩
  · rw [hstore]
    exact renewed_recalculation heta htrace.line htrace.predicted
  · rw [htrace.result, ← hchanges, List.length_map, List.map_map]
    rfl
  · exact hchanges ▸ htrace.reported
  · intro v calls₂ result₂ v' hv hok₂ h₂
    obtain ⟨l₂, etas₂, htrace₂⟩ := recalculate_traces hessential (traces_fails hok₂ h₂)
    have hsettled : Settled { E with fails := SideChannel } (.ofText q) v.store := by
      rw [hv, hstore]
      exact settled_recalculated htrace.line htrace.predicted
    have hnone := settled_deltas heta hsettled htrace₂.line htrace₂.predicted
    obtain ⟨t₂, hstore₂⟩ := htrace₂.store
    refine ⟨?_, ?_, fun ev hev => consults_quiet (htrace₂.idle hnone ev hev)⟩
    · rw [htrace₂.result, hnone]
      rfl
    · rw [hstore₂, recalculation, hnone, List.map_nil, updatePositions_nil]

/-- The first of three was given a table, and the others stand where they stood. -/
def leftBehind : World := smooth.final (.empty 0)
  [walkIn "r" "1", walkIn "r" "2", walkIn "r" "3", assignTo "r" "7" "t"]

abbrev closedUp := run smooth.reply (recalculate "r") leftBehind

abbrev closedUpAgain := run smooth.reply (recalculate "r") closedUp.2.2

theorem recalculate_exact_leftBehind :
    closedUp.2.1 = .ok ⟨2, [.ofText "19", .ofText "31"]⟩ ∧
      Reported "r" [(.ofText "19", 1, 2), (.ofText "31", 2, 4)] closedUp.1 ∧
      closedUpAgain.2.1 = .ok ⟨0, []⟩ ∧ closedUpAgain.2.2.store = closedUp.2.2.store := by
  have hok : ∀ {calls : Calls}, (calls.all fun ev => ev.answer.toOption.isSome) = true →
      ∀ ev ∈ calls, ∀ e, ev.answer = .error e → SideChannel ev.call := by
    intro calls h ev hev e he
    obtain ⟨a, ha⟩ := answered_ok h ev hev
    cases he.symm.trans ha
  have hchanges : (lineAnswered closedUp.1).map (changes smooth.eta (.ofText "r")) =
      some [(.ofText "19", 1, 2), (.ofText "31", 2, 4)] := by decide +kernel
  obtain ⟨l, hread, -, -, hresult, -, hreported, hagain⟩ :=
    recalculate_exact (f := smooth.eta) (fun _ _ _ _ h => h) (hok (by decide +kernel))
      (run_traces smooth.reply_answers (recalculate "r") leftBehind)
  rw [hread] at hchanges
  have hchanges := Option.some.inj hchanges
  rw [hchanges] at hresult hreported
  obtain ⟨hnothing, hstore, -⟩ := hagain _ _ _ _ rfl (hok (by decide +kernel))
    (run_traces smooth.reply_answers (recalculate "r") closedUp.2.2)
  exact ⟨hresult, hreported, hnothing, hstore⟩

end SpotQueue.RenumberedLine
