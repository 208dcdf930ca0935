import SpotQueue.Simulation

namespace SpotQueue.SettledLine

open SpotQueue.Entity SpotQueue.Repository SpotQueue.Environment SpotQueue.Recalculator
open SpotQueue.UseCases SpotQueue.Frame SpotQueue.Line SpotQueue.Recalculation SpotQueue.Seating
open SpotQueue.Leaving SpotQueue.Registration SpotQueue.StoreChanges SpotQueue.RowChanges
open SpotQueue.SequentialRun SpotQueue.Simulation
open SpotQueue.Awaits.AsyncProgram SpotQueue.Awaits.AsyncProtocol SpotQueue.Awaits.LabelledRun

variable {E : Env} {s s' : Store} {r : Uuid} {l : List QueueEntry}
  {e : QueueEntry} {w w' : World} {α : Type}

/-- The rows carry their places and a prediction for who stands in front of them. -/
def SettledList (E : Env) (r : Uuid) (l : List QueueEntry) : Prop :=
  ∀ j e, l[j]? = some e → e.position = some (j + 1) ∧
    ∃ m, e.estimatedWaitMinutes = some m ∧ E.eta r (sumPartySize (l.take j)) e.partySize m

def Settled (E : Env) (r : Uuid) (s : Store) : Prop :=
  ∃ l, l.Perm (s.waiting r) ∧ SettledList E r l

/-- Rewriting rows without touching place, estimate or size keeps a line settled. -/
theorem settled_map {g : QueueEntry → QueueEntry} (hentries : s'.entries = s.entries.map g)
    (hg : ∀ e ∈ s.entries, ((g e).restaurantId = r ∧ (g e).status = .waiting) ↔
      (e.restaurantId = r ∧ e.status = .waiting))
    (hrow : ∀ e ∈ s.waiting r, (g e).position = e.position ∧
      (g e).estimatedWaitMinutes = e.estimatedWaitMinutes ∧ (g e).partySize = e.partySize)
    (h : Settled E r s) : Settled E r s' := by
  obtain ⟨l, hperm, hl⟩ := h
  refine ⟨l.map g, waiting_map hentries hg ▸ hperm.map g, fun j d hd => ?_⟩
  rw [List.getElem?_map, Option.map_eq_some_iff] at hd
  obtain ⟨e, he, rfl⟩ := hd
  obtain ⟨hp, hm, hn⟩ := hrow e (hperm.mem_iff.mp (List.mem_of_getElem? he))
  have hsum : sumPartySize ((l.map g).take j) = sumPartySize (l.take j) := by
    rw [← List.map_take]
    exact sumPartySize_map fun d hd => (hrow d (hperm.mem_iff.mp (List.mem_of_mem_take hd))).2.2
  rw [hp, hm, hn, hsum]
  exact hl j e he

/-- A committed recalculation settles its line, whatever was stored before. -/
theorem settled_recalculated {q : String} {etas : List Nat} {t : Time}
    (hline : IsLine s (.ofText q) l) (hetas : EtasOf E q l etas) :
    Settled E (.ofText q) (s.updatePositions (recalculation l etas) t) := by
  have hlen := etasOf_length hetas
  have hcases : ∀ e ∈ s.entries, _ := fun e => renumber_cases (t := t) hline hlen
  have hsame : ∀ e ∈ s.entries, SameTicket e ((recalculation l etas).foldl (applyUpdate t) e) := by
    intro e he
    obtain ⟨-, hkept⟩ | ⟨j, m, u, -, -, hmoved⟩ := hcases e he
    · rw [hkept]
      rfl
    · rw [hmoved]
      rfl
  have hwaiting := waiting_map (r := .ofText q) (Store.updatePositions_entries s _ t) fun e he => by
    rw [hsame e he]
  refine ⟨l.map _, hwaiting ▸ hline.perm.map _, fun j d hd => ?_⟩
  rw [List.getElem?_map, Option.map_eq_some_iff] at hd
  obtain ⟨e, he, rfl⟩ := hd
  obtain ⟨m, u, hm, hmoved⟩ := renumbered_row (t := t) hline hlen he
  have hsum : sumPartySize ((l.map ((recalculation l etas).foldl (applyUpdate t))).take j) =
      sumPartySize (l.take j) := by
    rw [← List.map_take]
    exact sumPartySize_map fun d hd => by
      rw [hsame d ((isLine_mem hline).mp (List.mem_of_mem_take hd)).1]
  have heta := etasOf_getElem? hetas he hm
  rw [hmoved, hsum]
  exact ⟨rfl, m, rfl, heta⟩

theorem settled_joined {hfresh : e.id ∉ s.entries.map (·.id)} {changedBy : String} {now : Time}
    {minutes : Nat} (hw : e.status = .waiting)
    (hpos : e.position = some ((s.waiting e.restaurantId).length + 1))
    (hm : e.estimatedWaitMinutes = some minutes)
    (heta : E.eta e.restaurantId (sumPartySize (s.waiting e.restaurantId)) e.partySize minutes)
    (h : Settled E r s) : Settled E r (joinedStore s e hfresh changedBy now) := by
  obtain ⟨l, hperm, hl⟩ := h
  have hwaiting : (joinedStore s e hfresh changedBy now).waiting r =
      s.waiting r ++ if e.restaurantId = r then [e] else [] := by
    simp only [Store.waiting, joinedStore, Store.log_entries, Store.insert_entries,
      List.filter_append]
    congr 1
    by_cases hr : e.restaurantId = r
    · simp [hr, hw]
    · simp [hr]
  by_cases hr : e.restaurantId = r
  · subst hr
    rw [if_pos rfl] at hwaiting
    refine ⟨l ++ [e], hwaiting ▸ hperm.append_right _, fun j d hd => ?_⟩
    obtain hj | hj := Nat.lt_or_ge j l.length
    · rw [List.getElem?_append_left hj] at hd
      rw [List.take_append_of_le_length hj.le]
      exact hl j d hd
    · rw [List.getElem?_append_right hj] at hd
      obtain ⟨hlast, rfl⟩ : j - l.length = 0 ∧ e = d := by
        cases hk : j - l.length with
        | zero => simpa [hk] using hd
        | succ k => simp [hk] at hd
      have hjl : j = l.length := by omega
      subst hjl
      rw [List.take_left, sumPartySize_perm hperm, hperm.length_eq]
      exact ⟨hpos, minutes, hm, heta⟩
  · rw [if_neg hr, List.append_nil] at hwaiting
    exact ⟨l, hwaiting ▸ hperm, hl⟩

/-- The lines of other restaurants are not even touched. -/
theorem changes_waiting {op : Operation} {D : Time → Prop} (h : Changes E op D s s')
    (hr : r ≠ .ofText op.restaurantId) : s'.waiting r = s.waiting r := by
  induction h with
  | refl => rfl
  | tail _ hlast ih =>
    obtain ⟨g, hg, hrow⟩ := change_rows hlast
    have hkept : ∀ e ∈ _, e.restaurantId = r → g e = e := fun e he her => (hrow e he).2 (her ▸ hr)
    have hwaiting := waiting_map (r := r) hg fun e he => by
      by_cases her : e.restaurantId = r
      · rw [hkept e he her]
      · rw [rowChange_restaurant (hrow e he).1]
        simp [her]
    rw [hwaiting, ← ih]
    refine (List.map_congr_left fun e he => ?_).trans (List.map_id _)
    obtain ⟨he, her, -⟩ := waiting_mem.mp he
    exact hkept e he her

theorem settled_of_waiting (h : s'.waiting r = s.waiting r) (hs : Settled E r s) : Settled E r s' := by
  obtain ⟨l, hperm, hl⟩ := hs
  exact ⟨l, h ▸ hperm, hl⟩

/-- The operation has read a line and committed what its recalculation asks for. -/
def Recalculates (E : Env) (q : String) (s s' : Store) : Prop :=
  ∃ l etas t, IsLine s (.ofText q) l ∧ EtasOf E q l etas ∧
    s' = s.updatePositions (recalculation l etas) t

/-- Where no database or upstream call fails, a recalculation is always carried out. -/
theorem recalculate_recalculates {q : String} {rest : PositionRecalculationResult → UseCase α}
    {x : Except QueueError α} (hfails : ¬ EssentialFails E) (hrest : ∀ res, Issues Quiet (rest res))
    (h : Executes E.Answers (recalculate q >>= rest) w x w') : Recalculates E q w.store w'.store := by
  obtain ⟨hf, -⟩ | hbatch := recalculate_batched hrest h
  · exact (hfails hf).elim
  · exact hbatch

theorem closeRanks_recalculates {q r : String} {rest : PositionRecalculationResult → UseCase α}
    {x : Except QueueError α} (hfails : ¬ EssentialFails E) (hrest : ∀ res, Issues Quiet (rest res))
    (h : Executes E.Answers (closeRanks q r >>= rest) w x w') :
    Recalculates E r w.store w'.store := by
  obtain ⟨hf, -⟩ | hbatch := closeRanks_batched hrest h
  · exact (hfails hf).elim
  · exact hbatch

theorem settled_ring {found : QueueEntry} {a b : Time} {q k : String} (hfound : Found w q k found)
    (h : Settled E r w.store) : Settled E r (w.store.put (found.rung a b)) := by
  have hput : ∀ c ∈ w.store.entries, _ := fun c =>
    put_cases (d := found.rung a b) hfound.mem rfl
  refine settled_map (Store.put_entries _ _) (fun c hc => ?_) (fun c hc => ?_) h
  · obtain ⟨rfl, heq⟩ | heq := hput c hc
    · rw [heq]
      rfl
    · rw [heq]
  · obtain ⟨rfl, heq⟩ | heq := hput c (waiting_mem.mp hc).1
    · rw [heq]
      exact ⟨rfl, rfl, rfl⟩
    · rw [heq]
      exact ⟨rfl, rfl, rfl⟩

/-- How a staff operation leaves the line of its own restaurant when no database or
upstream call fails. -/
theorem execute_settled {op : Operation} {calls : Calls} {y : Except QueueError Outcome}
    (hfails : ¬ EssentialFails E) (hheld : Held w.store) (hregister : ∀ input, op ≠ .register input)
    (hassign : ∀ input, op ≠ .assignTable input) (h : Traces E.Answers op.execute w calls y w')
    (hs : Settled E (.ofText op.restaurantId) w.store) :
    Settled E (.ofText op.restaurantId) w'.store := by
  have hrecalculated : ∀ {s s'}, Recalculates E op.restaurantId s s' →
      Settled E (.ofText op.restaurantId) s' := by
    rintro s s' ⟨l, etas, t, hline, hetas, rfl⟩
    exact settled_recalculated hline hetas
  cases op with
  | register input => exact (hregister input rfl).elim
  | assignTable input => exact (hassign input rfl).elim
  | seatParty input =>
    obtain ⟨x, h, -⟩ := traces_map h
    cases seatParty_executes h with
    | refused hstill _ => exact hstill.store ▸ hs
    | stranded _ _ hstill => exact hstill.store ▸ hs
    | seated _ _ _ _ _ hrest =>
      exact hrecalculated
        (closeRanks_recalculates hfails (fun _ => issues_notifySeated _ _) ⟨_, hrest⟩)
  | skipParty input =>
    obtain ⟨x, h, -⟩ := traces_map h
    cases skipParty_executes ⟨_, h⟩ with
    | refused hstill => exact hstill.store ▸ hs
    | shifted _ _ _ _ _ hf _ => exact (hfails hf).elim
    | reordered _ _ _ _ _ _ hrest =>
      exact hrecalculated
        (recalculate_recalculates hfails (fun _ => issues_notifySkipped _ _ _ _) hrest)
    | skipped _ _ _ hrest =>
      exact hrecalculated
        (closeRanks_recalculates hfails (fun _ => issues_notifySkipped _ _ _ _) hrest)
  | cancelQueueEntry input =>
    obtain ⟨x, h, -⟩ := traces_map h
    cases cancelQueueEntry_executes (held_tableFree hheld) ⟨_, h⟩ with
    | refused hstill => exact hstill.store ▸ hs
    | cancelled _ _ _ hrest =>
      exact hrecalculated
        (closeRanks_recalculates hfails (fun _ => issues_notifyCancelled _ _) hrest)
  | ringCustomer input =>
    obtain ⟨x, h, -⟩ := traces_map h
    cases ringCustomer_executes ⟨_, h⟩ with
    | refused hstill => exact hstill.store ▸ hs
    | rung hfound hv hrest =>
      rw [(calm_of_issues (issues_notifyRung _ _) hrest).store, hv.store]
      exact settled_ring hfound hs

end SpotQueue.SettledLine
