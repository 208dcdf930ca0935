import SpotQueue.LineOrder
import SpotQueue.Simulation

namespace SpotQueue.NoOvertaking

open SpotQueue.Entity SpotQueue.Repository SpotQueue.Environment SpotQueue.UseCases
open SpotQueue.Frame SpotQueue.Line SpotQueue.Registration SpotQueue.RowChanges SpotQueue.LineOrder
open SpotQueue.SequentialRun SpotQueue.Simulation SpotQueue.Awaits.LabelledRun

variable {E : Env} {start : Time} {tr : History} {w w' : World} {s : Store} {e : QueueEntry}
  {l : Executed}

/-- Some operation has tried to move this ticket down its line. -/
def Moved (tr : History) (id : Uuid) : Prop := ∃ step ∈ tr, step.label.operation.Shifts id

/-- A registration finds nobody standing further back than the number of parties
waiting, leaving aside those that were moved down. -/
def HasRoom (tr : History) (step : Transition World Executed) : Prop :=
  ∀ input, step.label.operation = .register input →
    ∀ e ∈ step.before.store.waiting (.ofText input.restaurantId), ¬ Moved tr e.id →
      ∀ p ∈ e.position, p ≤ (step.before.store.waiting (.ofText input.restaurantId)).length

def Accepted (step : Transition World Executed) : Prop := ∃ o, step.label.result = .ok o

theorem inOrder_mono {M M' : Uuid → Prop} (hM : ∀ id, M id → M' id) (h : InOrder M s) :
    InOrder M' s :=
  List.Pairwise.imp (fun h hr ha hb hm => h hr ha hb (mt (hM _) hm)) h

theorem inOrder_joined {M : Uuid → Prop} {hfresh : e.id ∉ s.entries.map (·.id)}
    {changedBy : String} {now : Time} {n : Nat} (hpos : e.position = some (n + 1))
    (hroom : ∀ c ∈ s.waiting e.restaurantId, ¬ M c.id → ∀ p ∈ c.position, p ≤ n) (hp : Placed s)
    (h : InOrder M s) : InOrder M (joinedStore s e hfresh changedBy now) := by
  rw [InOrder, joinedStore, Store.log_entries, Store.insert_entries, List.pairwise_append]
  refine ⟨h, List.pairwise_singleton _ _, fun c hc d hd hr hcw hdw hm => ?_⟩
  obtain rfl := List.mem_singleton.mp hd
  obtain ⟨p, hp⟩ := hp c hc hcw
  have hle := hroom c (waiting_mem.mpr ⟨hc, hr, hcw⟩) hm p hp
  exact ⟨p, n + 1, hp, hpos, by omega⟩

theorem placed_joined {hfresh : e.id ∉ s.entries.map (·.id)} {changedBy : String} {now : Time}
    {n : Nat} (hpos : e.position = some (n + 1)) (h : Placed s) :
    Placed (joinedStore s e hfresh changedBy now) := by
  intro c hc hw
  rw [joinedStore, Store.log_entries, Store.insert_entries, List.mem_append, List.mem_singleton] at hc
  obtain hc | rfl := hc
  · exact h c hc hw
  · exact ⟨_, hpos⟩

/-- A stored registration puts its ticket behind as many parties as wait. -/
theorem registered_last {input : RegisterQueueInput} {x : Except QueueError RegisterQueueOutput}
    {calls : Seating.Calls} {u : World} (h : RegisterOutcome E input w calls x u) :
    (u.store = w.store ∧ ∃ err, x = .error err) ∨
      ∃ e hfresh changedBy now, u.store = joinedStore w.store e hfresh changedBy now ∧
        e.restaurantId = .ofText input.restaurantId ∧ e.status = .waiting ∧
        e.position = some ((w.store.waiting (.ofText input.restaurantId)).length + 1) ∧
        x = .ok (toOutputDTO e) := by
  cases h with
  | refused hstill => exact .inl ⟨hstill.store, _, rfl⟩
  | registered _ hmetrics _ he _ hfresh _ _ hv hrest =>
    have hstore := (announce_calm ⟨_, hrest⟩).store.trans hv.store
    refine .inr ⟨_, hfresh, _, _, hstore, ?_, ?_, ?_, rfl⟩
    · exact he ▸ rfl
    · exact he ▸ rfl
    · rw [he, hmetrics]
      rfl

theorem step_inOrder (hrun : Run (Sequential E) (World.empty start) tr w)
    (hstep : Sequential E w l w') (hroom : Accepted ⟨w, l, w'⟩ → HasRoom tr ⟨w, l, w'⟩)
    (h : InOrder (Moved tr) w.store) (hp : Placed w.store) :
    InOrder (Moved (tr ++ [⟨w, l, w'⟩])) w'.store ∧ Placed w'.store := by
  have hgrow : ∀ id, Moved tr id → Moved (tr ++ [⟨w, l, w'⟩]) id := by
    rintro id ⟨step, hmem, hshifts⟩
    exact ⟨step, List.mem_append_left _ hmem, hshifts⟩
  have h' := inOrder_mono hgrow h
  cases run_outcome hrun hstep with
  | changed _ _ _ hchanges =>
    have hlast : ∀ id, l.operation.Shifts id → Moved (tr ++ [⟨w, l, w'⟩]) id :=
      fun id hid => ⟨⟨w, l, w'⟩, by simp, hid⟩
    exact changes_inOrder hlast hchanges h' hp
  | @joined input x t u hop _ _ hout hresult hend =>
    have hstore : w'.store = u.store := by rw [hend, respond_store]
    obtain ⟨hsame, -⟩ | ⟨e, hfresh, changedBy, now, hu, hr, -, hpos, hx⟩ := registered_last hout
    · have hw : w'.store = w.store := hstore.trans hsame
      rw [hw]
      exact ⟨h', hp⟩
    · have haccepted : Accepted ⟨w, l, w'⟩ := ⟨_, by rw [hresult, hx]; rfl⟩
      have hroom := hroom haccepted input hop
      rw [hstore, hu]
      refine ⟨inOrder_joined hpos (fun c hc hm => ?_) hp h', placed_joined hpos hp⟩
      exact hroom c (hr ▸ hc) (mt (hgrow _) hm)

/-- Every registration so far that was accepted found room at the end of its line. -/
def AlwaysRoom (tr : History) : Prop :=
  ∀ pre step post, tr = pre ++ step :: post → Accepted step → HasRoom pre step

theorem run_inOrder (hrun : Run (Sequential E) (World.empty start) tr w) (hroom : AlwaysRoom tr) :
    InOrder (Moved tr) w.store ∧ Placed w.store := by
  induction hrun with
  | nil => exact ⟨List.Pairwise.nil, by simp [Placed, World.empty, Store.empty]⟩
  | @snoc tr w w' l hrun hstep ih =>
    have hpast : AlwaysRoom tr := fun pre step post htr =>
      hroom pre step (post ++ [⟨w, l, w'⟩]) (by simp [htr])
    obtain ⟨h, hp⟩ := ih hpast
    exact step_inOrder hrun hstep (hroom tr _ [] rfl) h hp

end SpotQueue.NoOvertaking
