import SpotQueue.RowWrites
import SpotQueue.StoreWrites
import SpotQueue.TableCalls
import SpotQueue.Simulation

namespace SpotQueue.BoundTables

open SpotQueue.Entity SpotQueue.Repository SpotQueue.Environment SpotQueue.Recalculator
open SpotQueue.UseCases SpotQueue.Frame SpotQueue.Guards SpotQueue.Line SpotQueue.Recalculation
open SpotQueue.Seating SpotQueue.Leaving SpotQueue.Registration SpotQueue.StoreChanges
open SpotQueue.RowChanges SpotQueue.RowWrites SpotQueue.TableCalls SpotQueue.SequentialRun
  SpotQueue.StoreWrites
open SpotQueue.Simulation
open SpotQueue.Awaits.AsyncProgram SpotQueue.Awaits.AsyncProtocol SpotQueue.Awaits.LabelledRun

variable {E : Env} {w w' : World} {op : Operation} {s s' : Store} {e d : QueueEntry} {α : Type}
  {calls : Calls}

/-- The body schemas let no seating without a table through. -/
def Validated (op : Operation) : Prop := ∀ tableIds ∈ seatedTables op, tableIds ≠ []

/-- Some table is bound to the ticket. -/
def Bound (id : Uuid) (s : Store) : Prop :=
  ∃ a ∈ s.assignments, a.queueEntryId = id ∧ a.releasedAt = none

/-- Nobody is seated without a table. -/
def SeatsBound (s : Store) : Prop := ∀ e ∈ s.entries, e.status = .seated → Bound e.id s

theorem seatsBound_map {f : QueueEntry → QueueEntry} (hentries : s'.entries = s.entries.map f)
    (hassignments : s'.assignments = s.assignments)
    (hf : ∀ e ∈ s.entries, (f e).id = e.id ∧ ((f e).status = .seated → e.status = .seated))
    (hs : SeatsBound s) : SeatsBound s' := by
  intro d hd hseated
  rw [hentries] at hd
  obtain ⟨e, he, rfl⟩ := List.mem_map.mp hd
  rw [Bound, hassignments, (hf e he).1]
  exact hs e he ((hf e he).2 hseated)

theorem status_not_seated (hd : StatusRow e d) (hw : e.status = .waiting) : d.status ≠ .seated := by
  cases hd with
  | skipped => exact nofun
  | cancelled hs =>
    obtain rfl | rfl := hs
    · exact nofun
    · exact nofun
  | shifted =>
    change e.status ≠ .seated
    rw [hw]
    exact nofun

theorem seatsBound_write (hvalid : Validated op) (hwrite : Write op s s') (hs : SeatsBound s) :
    SeatsBound s' := by
  have hput : ∀ {d : QueueEntry}, d.status ≠ .seated → s'.entries = (s.put d).entries →
      s'.assignments = s.assignments → SeatsBound s' := by
    intro d hd hentries hassignments
    refine seatsBound_map hentries hassignments (fun c _ => ?_) hs
    split
    · rename_i hcd
      exact ⟨hcd.symm, fun h => (hd h).elim⟩
    · exact ⟨rfl, id⟩
  have hbatch : ∀ {us t}, s' = s.updatePositions us t → SeatsBound s' := by
    rintro us t rfl
    refine seatsBound_map rfl rfl (fun c _ => ⟨foldl_applyUpdate_id _ _ c, ?_⟩) hs
    rw [foldl_applyUpdate_status]
    exact id
  cases hwrite with
  | joined _ _ =>
    intro d hd hseated
    obtain hd | hd := List.mem_append.mp hd
    · exact hs d hd hseated
    · rw [List.mem_singleton.mp hd] at hseated
      cases hseated
  | @seated e a b now tableIds assignedBy hop hmem hw =>
    intro d hd hseated
    obtain ⟨c, hc, rfl⟩ := List.mem_map.mp hd
    split
    · obtain ⟨tableId, htable⟩ := List.exists_mem_of_ne_nil tableIds (hvalid tableIds hop)
      exact ⟨_, List.mem_append_right _ (List.mem_map_of_mem htable), rfl, rfl⟩
    · rename_i hce
      rw [if_neg hce] at hseated
      obtain ⟨t, ht, hbound⟩ := hs c hc hseated
      exact ⟨t, List.mem_append_left _ ht, hbound⟩
  | status _ hw hd => exact hput (status_not_seated hd hw) rfl rfl
  | @rung e a b _ hw _ =>
    have hkept : (e.rung a b).status ≠ .seated := by
      rw [show (e.rung a b).status = .waiting from hw]
      exact nofun
    exact hput hkept rfl rfl
  | renumbered => exact hbatch rfl
  | reordered => exact hbatch rfl

/-- Tables are bound to those who are seated and to nobody else. -/
theorem bound_iff (hheld : Held s) (hseats : SeatsBound s) (he : e ∈ s.entries) :
    Bound e.id s ↔ e.status = .seated := by
  constructor
  · rintro ⟨a, ha, hid, -⟩
    obtain ⟨-, d, hd, hda, hseated⟩ := hheld a ha
    rwa [← eq_of_id_eq s.key hd he (hda.trans hid)]
  · exact hseats e he

/-- Calls of the release branch of a cancellation. -/
def Releases : Call → Prop
  | .findActiveTableAssignments _ | .releaseTables _ _ | .releaseTableAssignments _ => True
  | _ => False

/-- Asked for the tables of a party that may still be cancelled, the database has
none, and the restaurant service is not called at all. -/
def NothingToRelease (ev : Event Call Answer QueueError World) : Prop :=
  match ev with
  | ⟨_, .findActiveTableAssignments _, .ok l, _⟩ => l = []
  | ⟨_, .releaseTables _ _, _, _⟩ => False
  | _ => True

theorem nothing_of_not_releases {ev : Event Call Answer QueueError World} (h : ¬ Releases ev.call) :
    NothingToRelease ev := by
  obtain ⟨s, c, x, t⟩ := ev
  cases c <;> first | exact (h trivial).elim | trivial

theorem tells_not_releases {c : Call} (h : Tells c) : ¬ Releases c := by
  obtain rfl | h := h
  · exact id
  · cases c <;> first | exact id | exact h.elim

theorem realigns_not_releases {c : Call} (h : Realigns c ∨ Tells c) : ¬ Releases c := by
  obtain h | h := h
  · cases c <;> first | exact id | exact h.elim
  · exact tells_not_releases h

theorem releaseAssigned_traces {input : CancelQueueEntryInput} {n : Nat} {x : Except QueueError Unit}
    (hfree : w.store.activeAssignments (.ofText input.queueEntryId) = [])
    (h : Traces E.Answers (releaseAssigned input n) w calls x w') :
    ∀ ev ∈ calls, NothingToRelease ev := by
  obtain ⟨l, u, post, rfl, hl, h⟩ | ⟨err, rfl, rfl, hl⟩ := traces_call_bind h
  swap
  · simp [NothingToRelease]
  obtain rfl := nothing_assigned hfree hl
  cases h
  simp [NothingToRelease]

theorem cancelQueueEntry_traces {input : CancelQueueEntryInput}
    {x : Except QueueError CancelQueueEntryOutput} (hfree : TableFree w.store)
    (h : Traces E.Answers (cancelQueueEntry input) w calls x w') :
    ∀ ev ∈ calls, NothingToRelease ev := by
  have hquiet : ∀ {β : Type} {p : UseCase β} {u v : World} {y : Except QueueError β} {tr : Calls},
      Issues (fun c => ¬ Releases c) p → Traces E.Answers p u tr y v → ∀ ev ∈ tr, NothingToRelease ev :=
    fun hp h ev hev => nothing_of_not_releases (issues_traces hp h ev hev)
  have hfind : Issues (fun c => ¬ Releases c) (findOwned input.restaurantId input.queueEntryId) :=
    issues_straight (straight_findOwned id)
  obtain ⟨found, u, pre, post, rfl, hlookup, h⟩ | ⟨err, rfl, hlookup⟩ := traces_bind h
  swap
  · exact hquiet hfind hlookup
  have hguard := issues_straight (straight_cancel (Q := fun c => ¬ Releases c) id found
    (targetStatus input.reason))
  obtain ⟨hwu, hmem, -⟩ := findOwned_executes ⟨_, hlookup⟩
  refine List.forall_mem_append.mpr ⟨hquiet hfind hlookup, ?_⟩
  obtain ⟨e, v, mid, post, rfl, hcancel, h⟩ | ⟨err, rfl, hcancel⟩ := traces_bind h
  swap
  · exact hquiet hguard hcancel
  obtain ⟨huv, hwaiting, -⟩ := cancel_executes ⟨_, hcancel⟩
  refine List.forall_mem_append.mpr ⟨hquiet hguard hcancel, ?_⟩
  have hnone : v.store.activeAssignments (.ofText input.queueEntryId) = [] := by
    rw [huv.store, hwu.store, ← (find_eq_some.mp hmem).2]
    exact hfree found (find_eq_some.mp hmem).1 hwaiting
  obtain ⟨_, z, mid', post, rfl, hrelease, h⟩ | ⟨err, rfl, hrelease⟩ := traces_bind h
  swap
  · exact releaseAssigned_traces hnone hrelease
  refine List.forall_mem_append.mpr ⟨releaseAssigned_traces hnone hrelease, ?_⟩
  exact hquiet (issues_bind (issues_call id) fun persisted =>
    issues_bind (issues_mono (fun _ => realigns_not_releases) (realigns_closeRanks _ _)) fun _ =>
      issues_mono (fun _ => tells_not_releases) (tells_notifyCancelled _ _)) h

theorem leavesTables_not_release {c : Call} (hc : LeavesTables c) (r : String)
    (tables : List ReleaseTableItem) : c ≠ .releaseTables r tables := by
  rintro rfl
  exact hc

/-- Whatever it is answered, no operation but a cancellation calls releaseTables. -/
theorem issues_execute (hop : ∀ input, op ≠ .cancelQueueEntry input) :
    Issues (fun c => ∀ r tables, c ≠ .releaseTables r tables) op.execute := by
  have hleaves : ∀ {β : Type} {p : UseCase β}, Issues LeavesTables p →
      Issues (fun c => ∀ r tables, c ≠ .releaseTables r tables) p := fun hp =>
    issues_mono (fun _ => leavesTables_not_release) hp
  have hreads : ∀ {β : Type} {p : UseCase β}, Issues Reads p →
      Issues (fun c => ∀ r tables, c ≠ .releaseTables r tables) p := fun hp =>
    hleaves (issues_mono (fun _ => reads_leavesTables) hp)
  have hmap : ∀ {β : Type} {f : β → Outcome} {p : UseCase β},
      Issues (fun c => ∀ r tables, c ≠ .releaseTables r tables) p →
      Issues (fun c => ∀ r tables, c ≠ .releaseTables r tables) (f <$> p) := fun hp =>
    issues_bind hp fun _ => issues_pure _
  cases op with
  | register input => exact hmap (hleaves (issues_registerQueue input))
  | seatParty input =>
    refine hmap (issues_bind (hreads (issues_findOwned _ _)) fun found =>
      issues_bind (hreads (issues_seat found)) fun _ => issues_bind (issues_call (by simp)) fun _ =>
        issues_bind (issues_call (by simp)) fun _ => hleaves ?_)
    exact (issues_renumbering fun _ => issues_notifySeated _ _).2
  | assignTable input =>
    refine hmap (issues_bind (hreads (issues_findOwned _ _)) fun found => ?_)
    change Issues _ (if _ then _ else _)
    split
    · exact issues_throw _
    refine issues_bind (hreads (issues_peopleAheadAtJoin _ _)) fun _ =>
      issues_bind (hreads (issues_seat found)) fun _ => issues_bind (issues_call (by simp)) fun _ =>
        issues_bind (issues_call (by simp)) fun _ => hleaves ?_
    exact issues_mono (fun _ hc => renumbers_leavesTables (.inl hc)) (issues_afterAssigning _ _ _ _)
  | skipParty input => exact hmap (hleaves (issues_skipParty input))
  | cancelQueueEntry input => exact (hop input rfl).elim
  | ringCustomer input => exact hmap (hleaves (issues_ringCustomer input))

theorem nothing_not_release {ev : Event Call Answer QueueError World} (h : NothingToRelease ev)
    (r : String) (tables : List ReleaseTableItem) : ev.call ≠ .releaseTables r tables := by
  obtain ⟨s, c, x, t⟩ := ev
  rintro rfl
  exact h

theorem sequential_releases {l : Executed} (hheld : Held w.store) (h : Sequential E w l w') :
    (∀ ev ∈ l.calls, ∀ r tables, ev.call ≠ .releaseTables r tables) ∧
      ∀ input, l.operation = .cancelQueueEntry input → ∀ ev ∈ l.calls, NothingToRelease ev := by
  cases h with
  | @executes u op calls r t hpause hrun =>
    have hcancel : ∀ input, op = .cancelQueueEntry input → ∀ ev ∈ calls, NothingToRelease ev := by
      rintro input rfl
      obtain ⟨x, hcancel, -⟩ := traces_map hrun
      exact cancelQueueEntry_traces (w := w.at t) (held_tableFree hheld) hcancel
    refine ⟨fun ev hev => ?_, hcancel⟩
    by_cases hop : ∃ input, op = .cancelQueueEntry input
    · obtain ⟨input, hop⟩ := hop
      exact nothing_not_release (hcancel input hop ev hev)
    · exact issues_traces (issues_execute fun input h => hop ⟨input, h⟩) hrun ev hev

variable {start : Time} {tr : History}

/-- After every operation of a sequential run, completed or aborted, a table is bound to
a ticket exactly while it is seated; so no cancellation ever has a table to give back. -/
theorem run_bound (hvalid : ∀ step ∈ tr, Validated step.label.operation)
    (hrun : Run (Sequential E) (World.empty start) tr w) :
    (∀ e ∈ w.store.entries, Bound e.id w.store ↔ e.status = .seated) ∧
      ∀ step ∈ tr, (∀ ev ∈ step.label.calls, ∀ r tables, ev.call ≠ .releaseTables r tables) ∧
        ∀ input, step.label.operation = .cancelQueueEntry input →
          ∀ ev ∈ step.label.calls, NothingToRelease ev := by
  have hseats : SeatsBound w.store :=
    run_writes (I := SeatsBound) (List.forall_mem_nil _) seatsBound_write hrun hvalid
  refine ⟨fun e he => bound_iff (run_held hrun) hseats he, fun step hstep => ?_⟩
  obtain ⟨pre, hpre, -⟩ := run_upto hrun hstep
  exact sequential_releases (run_held hpre) (run_mem hrun hstep)

/-- One party is seated, the next one cancels. -/
def seatThenCancel : List Operation :=
  [walkIn "r" "1", seatAt "r" "7" "t", walkIn "r" "2", cancelFor "r" "29" "gone"]

theorem run_bound_seatThenCancel :
    (∀ e ∈ (smooth.final (.empty 0) seatThenCancel).store.entries,
        Bound e.id (smooth.final (.empty 0) seatThenCancel).store ↔ e.status = .seated) ∧
      ∀ step ∈ smooth.history (.empty 0) seatThenCancel,
        (∀ ev ∈ step.label.calls, ∀ r tables, ev.call ≠ .releaseTables r tables) ∧
          ∀ input, step.label.operation = .cancelQueueEntry input →
            ∀ ev ∈ step.label.calls, NothingToRelease ev := by
  refine run_bound (fun step hstep => ?_) (smooth.history_run (.empty 0) seatThenCancel)
  have hop := Script.operation_mem hstep
  simp only [seatThenCancel, List.mem_cons, List.not_mem_nil, or_false] at hop
  obtain hop | hop | hop | hop := hop <;> rw [hop]
  · exact nofun
  · rintro _ ⟨⟩
    exact List.cons_ne_nil _ _
  · exact nofun
  · exact nofun

end SpotQueue.BoundTables
