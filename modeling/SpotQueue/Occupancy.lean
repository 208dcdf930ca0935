import SpotQueue.TableCalls
import SpotQueue.Simulation

namespace SpotQueue.Occupancy

open SpotQueue.Entity SpotQueue.Repository SpotQueue.Environment SpotQueue.UseCases
open SpotQueue.Frame SpotQueue.Seating SpotQueue.Leaving SpotQueue.StoreChanges SpotQueue.RowChanges
open SpotQueue.TableCalls SpotQueue.SequentialRun SpotQueue.Simulation
open SpotQueue.Awaits.AsyncProgram SpotQueue.Awaits.AsyncProtocol SpotQueue.Awaits.LabelledRun

variable {E : Env} {w u w' : World} {calls : Calls} {l : Executed} {tr : History} {start : Time}
  {t : Uuid}

/-- Some assignment row says that the table is taken. -/
def Assigned (w : World) (t : Uuid) : Prop :=
  ∃ a ∈ w.store.assignments, a.tableId = t ∧ a.releasedAt = none

/-- The restaurant service has counted guests at this table, and the rows that
should say so were rejected. -/
def Stranded (calls : Calls) (t : Uuid) : Prop :=
  (∃ u r tables v, ⟨u, .assignTables r tables, .ok (), v⟩ ∈ calls ∧ 0 < assignedCount tables t) ∧
    ∃ ev ∈ calls, SeatingTransaction ev.call ∧ ∃ err, ev.answer = .error err

theorem not_stranded (h : ∀ ev ∈ calls, ¬ SeatingTransaction ev.call) : ¬ Stranded calls t :=
  fun ⟨_, ev, hev, hseats, _⟩ => h ev hev hseats

theorem share_length (base remainder n : Nat) : (share base remainder n).length = n := by
  induction n generalizing remainder with
  | zero => rfl
  | succ n ih => simp [share, ih]

theorem share_pos {base remainder n k : Nat} (h : k ∈ share base remainder n) : 0 < k := by
  induction n generalizing remainder with
  | zero => simp [share] at h
  | succ n ih =>
    obtain rfl | h := List.mem_cons.mp h
    · omega
    · exact ih h

theorem assignmentPayload_pos {partySize : Nat} {tableIds : List String} {item : AssignTableItem}
    (h : item ∈ assignmentPayload partySize tableIds) : 0 < item.count := by
  rw [assignmentPayload] at h
  rw [← List.map_uncurry_zip_eq_zipWith, List.mem_map] at h
  obtain ⟨⟨tableId, n⟩, hmem, rfl⟩ := h
  exact share_pos (List.of_mem_zip hmem).2

theorem assignmentPayload_tableIds (partySize : Nat) (tableIds : List String) :
    (assignmentPayload partySize tableIds).map (·.tableId) = tableIds := by
  rw [assignmentPayload]
  rw [← List.map_uncurry_zip_eq_zipWith, List.map_map]
  exact List.map_fst_zip (by simp [distribute, share_length])

theorem assignedCount_pos {tables : List AssignTableItem} (h : ∀ item ∈ tables, 0 < item.count) :
    0 < assignedCount tables t ↔ t ∈ tables.map fun item => Uuid.ofText item.tableId := by
  rw [assignedCount]
  induction tables with
  | nil => simp
  | cons item tables ih =>
    have hrest := ih fun other ho => h other (List.mem_cons_of_mem _ ho)
    have hitem := h item List.mem_cons_self
    by_cases ht : Uuid.ofText item.tableId = t
    · simp [ht]
      omega
    · simp only [List.map_cons, List.mem_cons, Ne.symm ht, false_or, ← hrest]
      simp [ht]

/-- What one operation does to occupancy and assignments: nothing, both, or the
occupancy alone. -/
inductive TableStep (w : World) (calls : Calls) (w' : World) : Prop
  | same (hsame : SameTables w w') (hcalls : ∀ ev ∈ calls, ¬ SeatingTransaction ev.call)
  | stranded {counts : List AssignTableItem}
      (hoccupancy : ∀ t, w'.occupancy t = w.occupancy t + assignedCount counts t)
      (hassignments : w'.store.assignments = w.store.assignments)
      (hcalls : ∀ t, Stranded calls t ↔ 0 < assignedCount counts t)
  | seated {counts : List AssignTableItem} {as : List TableAssignment}
      (hoccupancy : ∀ t, w'.occupancy t = w.occupancy t + assignedCount counts t)
      (hassignments : w'.store.assignments = w.store.assignments ++ as)
      (has : ∀ t, (∃ a ∈ as, a.tableId = t ∧ a.releasedAt = none) ↔ 0 < assignedCount counts t)
      (hcalls : ∀ t, ¬ Stranded calls t)

theorem newAssignments_tables {e : QueueEntry} {tableIds : List String} {assignedBy : String}
    {now : Time} : (∃ a ∈ newAssignments e tableIds assignedBy now, a.tableId = t ∧
      a.releasedAt = none) ↔ t ∈ tableIds.map Uuid.ofText := by
  simp [newAssignments]

theorem seating_tableStep {α : Type} {r q : String} {counts : QueueEntry → List AssignTableItem}
    {tableIds : List String} {assignedBy : String} {rest : QueueEntry → UseCase α}
    {x : Except QueueError α} (hcounts : ∀ e, ∀ item ∈ counts e, 0 < item.count)
    (hids : ∀ e, (counts e).map (·.tableId) = tableIds)
    (hrest : ∀ e, Issues LeavesTables (rest e))
    (h : SeatingOutcome E r q counts tableIds assignedBy rest w calls x w') :
    TableStep w calls w' := by
  cases h with
  | refused hstill hcalls => exact .same (sameTables_of_calm hstill.calm) hcalls
  | @stranded pre found e err u v _ hfound hpre hstill =>
    have hoccupancy : ∀ t, w'.occupancy t = w.occupancy t + assignedCount (counts found) t := by
      intro t
      rw [hstill.occupancy]
      rfl
    refine .stranded hoccupancy (by rw [hstill.store]; rfl) fun t => ?_
    constructor
    · rintro ⟨⟨u', r', tables, v', hmem, hpos⟩, -⟩
      obtain hmem | hmem := List.mem_append.mp hmem
      · exact (hpre _ hmem).elim
      obtain hmem | hmem := List.mem_cons.mp hmem
      · cases hmem
        exact hpos
      · cases List.mem_singleton.mp hmem
    · intro hpos
      exact ⟨⟨u, r, counts found, v, by simp, hpos⟩, _, List.mem_append_right _
        (List.mem_cons_of_mem _ List.mem_cons_self), trivial, err, rfl⟩
  | @seated pre post found a b _ u v z _ hfound ha hb hpre hstore h =>
    have hkept := sameTables_of_issues (hrest _) ⟨_, h⟩
    have hoccupancy : ∀ t, w'.occupancy t = w.occupancy t + assignedCount (counts found) t := by
      intro t
      rw [hkept.occupancy, hstore.occupancy]
      rfl
    refine .seated hoccupancy (by rw [hkept.assignments, hstore.store]; rfl) (fun t => ?_) fun t => ?_
    · rw [newAssignments_tables, assignedCount_pos (hcounts found), ← hids found, List.map_map]
      rfl
    · rintro ⟨-, ev, hev, hseats, err, herr⟩
      obtain hev | hev := List.mem_append.mp hev
      · exact reads_not_seating (hpre ev hev) hseats
      obtain rfl | hev := List.mem_cons.mp hev
      · exact hseats
      obtain rfl | hev := List.mem_cons.mp hev
      · cases herr
      · exact leavesTables_not_seating (issues_traces (hrest _) h ev hev) hseats

/-- Given that no waiting party holds a table, nothing is ever released. -/
theorem execute_tableStep {op : Operation} {r : Except QueueError Outcome}
    (hheld : Held w.store) (h : Traces E.Answers op.execute w calls r w') :
    TableStep w calls w' := by
  cases op with
  | register input =>
    obtain ⟨x, h, -⟩ := traces_map h
    exact .same (sameTables_of_issues (issues_registerQueue input) ⟨_, h⟩)
      fun ev hev => leavesTables_not_seating (issues_traces (issues_registerQueue input) h ev hev)
  | seatParty input =>
    obtain ⟨x, h, -⟩ := traces_map h
    exact seating_tableStep (fun e item hi => assignmentPayload_pos hi)
      (fun e => assignmentPayload_tableIds _ _)
      (fun e => (issues_renumbering fun _ => issues_notifySeated _ _).2) (seatParty_executes h)
  | assignTable input =>
    obtain ⟨x, h, -⟩ := traces_map h
    obtain ⟨ahead, h⟩ := assignTable_executes h
    exact seating_tableStep (fun e => input.counts_pos) (fun e => rfl)
      (fun e => issues_mono (fun _ h => renumbers_leavesTables (.inl h))
        (issues_afterAssigning _ _ _ _)) h
  | skipParty input =>
    obtain ⟨x, h, -⟩ := traces_map h
    exact .same (sameTables_of_issues (issues_skipParty input) ⟨_, h⟩)
      fun ev hev => leavesTables_not_seating (issues_traces (issues_skipParty input) h ev hev)
  | ringCustomer input =>
    obtain ⟨x, h, -⟩ := traces_map h
    exact .same (sameTables_of_issues (issues_ringCustomer input) ⟨_, h⟩)
      fun ev hev => leavesTables_not_seating (issues_traces (issues_ringCustomer input) h ev hev)
  | cancelQueueEntry input =>
    obtain ⟨x, h, -⟩ := traces_map h
    refine .same ?_ fun ev hev => issues_traces (issues_cancelQueueEntry input) h ev hev
    cases cancelQueueEntry_executes (held_tableFree hheld) ⟨_, h⟩ with
    | refused hstill => exact sameTables_of_calm hstill.calm
    | cancelled _ _ hv hrest =>
      have hrest' := sameTables_of_issues
        (issues_renumbering fun _ => issues_notifyCancelled _ _).2 hrest
      exact ⟨hrest'.occupancy.trans hv.occupancy, by rw [hrest'.assignments, hv.store]; rfl⟩

theorem respond_tableStep {r : Except QueueError Outcome} (h : TableStep w calls w') :
    TableStep w calls (World.respond w' r) := by
  cases h with
  | same hsame hcalls => exact .same ⟨by simp [hsame.occupancy], by simp [hsame.assignments]⟩ hcalls
  | stranded ho ha hc => exact .stranded (by simpa using ho) (by simpa using ha) hc
  | seated ho ha has hc => exact .seated (by simpa using ho) (by simpa using ha) has hc

/-- Occupancy is what the rows and the stranded seatings account for. -/
def Balanced (tr : History) (w : World) : Prop :=
  ∀ t, 0 ≤ w.occupancy t ∧
    (0 < w.occupancy t ↔ Assigned w t ∨ ∃ step ∈ tr, Stranded step.label.calls t)

theorem balanced_step (h : Balanced tr w) (hstep : TableStep w l.calls w') :
    Balanced (tr ++ [⟨w, l, w'⟩]) w' := by
  intro t
  obtain ⟨hnonneg, hpos⟩ := h t
  have hlast : (∃ step ∈ tr ++ [⟨w, l, w'⟩], Stranded step.label.calls t) ↔
      (∃ step ∈ tr, Stranded step.label.calls t) ∨ Stranded l.calls t := by
    simp [or_and_right, exists_or]
  rw [hlast]
  cases hstep with
  | same hsame hcalls =>
    have hnot : ¬ Stranded l.calls t := not_stranded hcalls
    simp only [Assigned, hsame.occupancy, hsame.assignments, hnot, or_false]
    exact ⟨hnonneg, hpos⟩
  | stranded hoccupancy hassignments hcalls =>
    simp only [Assigned, hoccupancy, hassignments, hcalls] at hpos ⊢
    refine ⟨by omega, ?_⟩
    rw [← or_assoc, ← hpos]
    omega
  | @seated counts as hoccupancy hassignments has hcalls =>
    have hassigned : Assigned w' t ↔ Assigned w t ∨ 0 < assignedCount counts t := by
      rw [Assigned, hassignments, ← has t]
      simp [Assigned, or_and_right, exists_or]
    simp only [hoccupancy, hassigned, hcalls, or_false]
    refine ⟨by omega, ?_⟩
    rw [or_right_comm, ← hpos]
    omega

theorem run_balanced (hrun : Run (Sequential E) (World.empty start) tr w) : Balanced tr w := by
  refine run_invariant (I := Balanced) (G := fun _ => True) ?_ ?_ hrun fun _ _ => trivial
  · simp [Balanced, Assigned, World.empty, Store.empty]
  · rintro tr w l w' hrun h hstep -
    have hheld : Held w.store := run_held hrun
    apply balanced_step h
    cases hstep with
    | @executes u op calls r t hpause htraces =>
      cases respond_tableStep (r := r) (execute_tableStep (w := w.at t) hheld htraces) with
      | same hsame hcalls => exact .same ⟨hsame.occupancy, hsame.assignments⟩ hcalls
      | stranded ho ha hc => exact .stranded ho ha hc
      | seated ho ha has hc => exact .seated ho ha has hc

/-- After every operation of a run, whatever failed in it: a table counts guests
exactly when a row says it is taken or a seating of it was stranded. -/
theorem occupied_iff (hrun : Run (Sequential E) (World.empty start) tr w) (t : Uuid) :
    0 < w.occupancy t ↔ Assigned w t ∨ ∃ step ∈ tr, Stranded step.label.calls t :=
  (run_balanced hrun t).2

theorem occupied_iff_one :
    0 < (smooth.final (.empty 0) [walkIn "r" "1", seatAt "r" "7" "t"]).occupancy (.ofText "t") ↔
      Assigned (smooth.final (.empty 0) [walkIn "r" "1", seatAt "r" "7" "t"]) (.ofText "t") ∨
      ∃ step ∈ smooth.history (.empty 0) [walkIn "r" "1", seatAt "r" "7" "t"],
        Stranded step.label.calls (.ofText "t") :=
  occupied_iff (smooth.history_run _ _) _

/-- The transaction that should record a seat is rejected. -/
def rejecting : Script where
  fails
    | .assignTablesWithHistory _ _ _ _ => true
    | _ => false
  eta _ ahead partySize := ahead + partySize

theorem stranded_seat :
    ¬ ∀ (E : Env) (start : Time) (tr : History) (w : World),
      Run (Sequential E) (World.empty start) tr w → ∀ t, 0 < w.occupancy t ↔ Assigned w t := by
  intro h
  have hlaw := h rejecting.env 0 _ _
    (rejecting.history_run (.empty 0) [walkIn "r" "1", seatAt "r" "7" "t"]) (.ofText "t")
  have hoccupied : 0 < (rejecting.final (.empty 0) [walkIn "r" "1", seatAt "r" "7" "t"]).occupancy
      (.ofText "t") := by decide +kernel
  have hnone : (rejecting.final (.empty 0)
      [walkIn "r" "1", seatAt "r" "7" "t"]).store.assignments = [] := by decide +kernel
  obtain ⟨a, ha, -⟩ := hlaw.mp hoccupied
  rw [hnone] at ha
  cases ha

end SpotQueue.Occupancy
