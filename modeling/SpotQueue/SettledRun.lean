import SpotQueue.SettledLine

namespace SpotQueue.SettledRun

open SpotQueue.Entity SpotQueue.Repository SpotQueue.Environment SpotQueue.Recalculator
open SpotQueue.UseCases SpotQueue.Frame SpotQueue.Line SpotQueue.Recalculation
open SpotQueue.RowChanges SpotQueue.Registration SpotQueue.SettledLine SpotQueue.SequentialRun
  SpotQueue.Simulation
open SpotQueue.Awaits.AsyncProgram SpotQueue.Awaits.LabelledRun

variable {E : Env} {f : Uuid → Nat → Nat → Nat} {s : Store} {r : Uuid} {l l' : List QueueEntry}
  {w w' : World} {tr : History} {start : Time} {step : Executed}

/-- A restaurant's line as it stands after a recalculation that found nothing to do. -/
structure FullyRecalculated (E : Env) (f : Uuid → Nat → Nat → Nat) (r : Uuid) (w : World) : Prop where
  positions : ((w.store.waiting r).map (·.position)).Perm
    ((List.range (w.store.waiting r).length).map fun i => some (i + 1))
  estimates : ∀ e ∈ w.store.waiting r, e.estimatedWaitMinutes = some (f r (sumPartySize
    ((w.store.waiting r).filter fun d => d.position.getD 0 < e.position.getD 0)) e.partySize)
  idle : ∀ x w', Executes E.Answers (recalculate r.text) w x w' → x = .ok ⟨0, []⟩

theorem filter_eq_take {α : Type} {P : α → Prop} [DecidablePred P] {l : List α} {j : Nat}
    (h : ∀ i a, l[i]? = some a → (P a ↔ i < j)) : l.filter P = l.take j := by
  induction l generalizing j with
  | nil => simp
  | cons a l ih =>
    have hhead := h 0 a rfl
    cases j with
    | zero =>
      rw [List.take_zero, List.filter_eq_nil_iff]
      intro b hb
      obtain ⟨i, hi⟩ := List.mem_iff_getElem?.mp hb
      have hP : ¬ P b := mt (h i b hi).mp (Nat.not_lt_zero i)
      simpa using hP
    | succ j =>
      have htail : l.filter P = l.take j := ih fun i b hi => by
        exact (h (i + 1) b hi).trans Nat.succ_lt_succ_iff
      rw [List.filter_cons_of_pos (by simpa using hhead), htail, List.take_succ_cons]

theorem settledList_positions (hl : SettledList E r l) :
    l.map (·.position) = (List.range l.length).map fun i => some (i + 1) := by
  apply List.ext_getElem?
  intro j
  rw [List.getElem?_map, List.getElem?_map]
  obtain hj | hj := Nat.lt_or_ge j l.length
  · have he : l[j]? = some l[j] := List.getElem?_eq_getElem hj
    simp [hj, (hl j _ he).1]
  · simp [hj]

/-- Read from a settled line, no prediction differs from what is stored. -/
theorem settled_deltas {s : Store} {q : String} {l : List QueueEntry} {etas : List Nat}
    (heta : ∀ r ahead n m, E.eta r ahead n m → m = f r ahead n) (hs : Settled E (.ofText q) s)
    (hline : IsLine s (.ofText q) l) (hetas : EtasOf E q l etas) :
    deltas (entryInputs 0 0 l) etas = [] := by
  obtain ⟨l', hperm, hl⟩ := hs
  obtain rfl := numbered_line_unique hperm (fun j e he => (hl j e he).1) hline
  rw [List.eq_nil_iff_forall_not_mem]
  intro δ hδ
  obtain ⟨j, e, m, he, hm, hne, -⟩ := mem_deltas.mp hδ
  obtain ⟨hp, n, hstored, hn⟩ := hl j e he
  rw [heta _ _ _ _ hn, ← heta _ _ _ _ (etasOf_getElem? hetas he hm)] at hstored
  exact hne.elim (fun h => h hp) fun h => h hstored

theorem settled_idle {x : Except QueueError PositionRecalculationResult}
    (hfails : ¬ EssentialFails E) (heta : ∀ r ahead n m, E.eta r ahead n m → m = f r ahead n)
    (hs : Settled E r w.store) (h : Executes E.Answers (recalculate r.text) w x w') :
    x = .ok ⟨0, []⟩ := by
  cases recalculate_executes h with
  | rejected hf _ => exact (hfails hf).elim
  | settled => rfl
  | renumbered hline hetas hds hsome _ _ =>
    exact (hsome (hds ▸ settled_deltas heta (by rwa [Uuid.ofText_text]) hline hetas)).elim

theorem settled_fullyRecalculated (hfails : ¬ EssentialFails E)
    (heta : ∀ r ahead n m, E.eta r ahead n m → m = f r ahead n) (hs : Settled E r w.store) :
    FullyRecalculated E f r w := by
  refine ⟨?_, fun e he => ?_, fun x w' h => settled_idle hfails heta hs h⟩
  · obtain ⟨l, hperm, hl⟩ := hs
    rw [← hperm.length_eq, ← settledList_positions hl]
    exact (hperm.map _).symm
  · obtain ⟨l, hperm, hl⟩ := hs
    obtain ⟨j, hj⟩ := List.mem_iff_getElem?.mp (hperm.mem_iff.mpr he)
    obtain ⟨hp, m, hm, heta'⟩ := hl j e hj
    have hfilter : l.filter (fun d => d.position.getD 0 < e.position.getD 0) = l.take j :=
      filter_eq_take fun i d hi => by
        rw [hp, (hl i d hi).1]
        simp
    rw [hm, ← sumPartySize_perm (hperm.filter _), hfilter, heta _ _ _ _ heta']

theorem registered_settled {input : RegisterQueueInput} {x : Except QueueError RegisterQueueOutput}
    {calls : Seating.Calls} (h : RegisterOutcome E input w calls x w') (hs : Settled E r w.store) :
    Settled E r w'.store := by
  cases h with
  | refused hstill => exact hstill.store ▸ hs
  | @registered _ _ _ _ minutes _ metrics e _ _ _ _ _ _ _ _ hmetrics hm he _ hfresh _ _ hv hrest =>
    have hr : e.restaurantId = .ofText input.restaurantId := he ▸ rfl
    rw [(announce_calm ⟨_, hrest⟩).store, hv.store]
    have hminutes : e.estimatedWaitMinutes = some minutes := he ▸ rfl
    refine settled_joined (he ▸ rfl) ?_ hminutes ?_ hs
    · rw [hr, he, hmetrics]
      rfl
    · rw [hr, he]
      rw [hmetrics] at hm
      exact hm

theorem run_settled (hfails : ¬ EssentialFails E)
    (hrun : Run (Sequential E) (World.empty start) tr w)
    (hassign : ∀ step ∈ tr, ∀ input, step.label.operation ≠ .assignTable input) (r : Uuid) :
    Settled E r w.store := by
  revert r
  refine run_invariant (I := fun _ w => ∀ r, Settled E r w.store)
    (G := fun step => ∀ input, step.label.operation ≠ .assignTable input) ?_ ?_ hrun hassign
  · exact fun r => ⟨[], .refl _, fun j e he => by simp at he⟩
  rintro tr w step w' hrun hs hstep hassign r
  cases run_outcome hrun hstep with
  | joined _ _ _ hout _ hend =>
    rw [hend, respond_store]
    exact registered_settled (w := w.at _) hout (hs r)
  | changed hop _ _ hchanges =>
    by_cases hr : r = .ofText step.operation.restaurantId
    · subst hr
      cases hstep with
      | @executes u op calls y t _ htraces =>
        have hheld : Held w.store := run_held hrun
        rw [respond_store]
        exact execute_settled (w := w.at t) hfails hheld hop hassign htraces (hs _)
    · exact settled_of_waiting (changes_waiting hchanges hr) (hs r)

/-- Every completed operation leaves every line fully recalculated. -/
theorem run_fullyRecalculated (hfails : ∀ c, E.fails c → SideChannel c)
    (heta : ∀ r ahead n m, E.eta r ahead n m → m = f r ahead n)
    (hrun : Run (Sequential E) (World.empty start) tr w)
    (hassign : ∀ step ∈ tr, ∀ input, step.label.operation ≠ .assignTable input) (r : Uuid) :
    FullyRecalculated E f r w := by
  have hessential := not_essentialFails hfails
  exact settled_fullyRecalculated hessential heta (run_settled hessential hrun hassign r)

theorem run_fullyRecalculated_skip :
    FullyRecalculated smooth.env smooth.eta (.ofText "r") (smooth.final (.empty 0)
      [walkIn "r" "1", walkIn "r" "2", walkIn "r" "3", skipBy "r" "7" (some 1), seatAt "r" "19" "t"]) :=
  run_fullyRecalculated (fun _ hc => (Bool.false_ne_true hc).elim) (fun _ _ _ _ h => h)
    (smooth.history_run _ _)
    (fun step hstep input hop => by
      have hmem := Script.operation_mem hstep
      simp [hop, walkIn, skipBy, seatAt] at hmem) _

end SpotQueue.SettledRun
