import SpotQueue.RowChanges
import SpotQueue.Awaits.LabelledRun

namespace SpotQueue.SequentialRun

open SpotQueue.Entity SpotQueue.Repository SpotQueue.Environment SpotQueue.Recalculator
open SpotQueue.UseCases SpotQueue.Frame SpotQueue.Guards SpotQueue.Line SpotQueue.Recalculation
open SpotQueue.Seating SpotQueue.Leaving SpotQueue.Registration SpotQueue.StoreChanges
open SpotQueue.RowChanges
open SpotQueue.Awaits.AsyncProgram SpotQueue.Awaits.AsyncProtocol SpotQueue.Awaits.LabelledRun

variable {E : Env} {w w' : World} {l : Executed}

/-- One operation, the calls it made and how it ended. -/
structure Executed where
  operation : Operation
  calls : Calls
  result : Except QueueError Outcome

/-- A registration is answered once it has resolved. -/
def World.respond (w : World) : Except QueueError Outcome → World
  | .ok (.registered output) => w.deliver (.registered output)
  | _ => w

/-- Operations one after another: each runs alone, some time after the one before. -/
inductive Sequential (E : Env) : World → Executed → World → Prop
  | executes {w w' : World} {op : Operation} {calls : Calls} {r : Except QueueError Outcome}
      {t : Time} (hpause : E.pause w.clock t)
      (hrun : Traces E.Answers op.execute (w.at t) calls r w') :
      Sequential E w ⟨op, calls, r⟩ (World.respond w' r)

@[simp] theorem respond_store (w : World) (r : Except QueueError Outcome) :
    (World.respond w r).store = w.store := by
  unfold World.respond
  split <;> rfl

@[simp] theorem respond_occupancy (w : World) (r : Except QueueError Outcome) :
    (World.respond w r).occupancy = w.occupancy := by
  unfold World.respond
  split <;> rfl

@[simp] theorem respond_clock (w : World) (r : Except QueueError Outcome) :
    (World.respond w r).clock = w.clock := by
  unfold World.respond
  split <;> rfl

theorem during_respond (v w : World) (r : Except QueueError Outcome) :
    During E v (World.respond w r) = During E v w := by
  funext t
  simp [During]

theorem execute_changes {op : Operation} {calls : Calls} {r : Except QueueError Outcome}
    (hheld : Held w.store) (hop : ∀ input, op ≠ .register input)
    (h : Traces E.Answers op.execute w calls r w') :
    Changes E op (During E w w') w.store w'.store := by
  cases op with
  | register input => exact (hop input rfl).elim
  | seatParty input =>
    obtain ⟨x, h, -⟩ := traces_map h
    apply seating_changes (seatParty_executes h) rfl
    intro e z post h
    exact closeRanks_changes rfl (fun _ => issues_notifySeated _ _) ⟨_, h⟩
  | assignTable input =>
    obtain ⟨x, h, -⟩ := traces_map h
    obtain ⟨ahead, h⟩ := assignTable_executes h
    apply seating_changes h rfl
    intro e z post h
    rw [(calm_of_issues (issues_afterAssigning _ _ _ _) ⟨_, h⟩).store]
  | skipParty input =>
    obtain ⟨x, h, -⟩ := traces_map h
    exact skipParty_changes (skipParty_executes ⟨_, h⟩)
  | cancelQueueEntry input =>
    obtain ⟨x, h, -⟩ := traces_map h
    exact cancelQueueEntry_changes (cancelQueueEntry_executes (held_tableFree hheld) ⟨_, h⟩)
  | ringCustomer input =>
    obtain ⟨x, h, -⟩ := traces_map h
    exact ringCustomer_changes (ringCustomer_executes ⟨_, h⟩)

/-- One operation of a sequential run: a registration, or writes over existing rows. -/
inductive StepOutcome (E : Env) (w : World) (l : Executed) (w' : World) : Prop
  | joined {input : RegisterQueueInput} {x : Except QueueError RegisterQueueOutput} {t : Time}
      {u : World} (hop : l.operation = .register input) (hpause : E.pause w.clock t)
      (hlater : Later E t u.clock) (hout : RegisterOutcome E input (w.at t) l.calls x u)
      (hresult : l.result = x.map .registered)
      (hend : w' = World.respond u l.result)
  | changed {t : Time} (hop : ∀ input, l.operation ≠ .register input) (hpause : E.pause w.clock t)
      (hlater : Later E t w'.clock)
      (hchanges : Changes E l.operation (During E (w.at t) w') w.store w'.store)

theorem sequential_outcome (hheld : Held w.store) (h : Sequential E w l w') :
    StepOutcome E w l w' := by
  cases h with
  | @executes u op calls r t hpause hrun =>
  by_cases hop : ∃ input, op = .register input
  · obtain ⟨input, rfl⟩ := hop
    obtain ⟨x, hregister, rfl⟩ := traces_map hrun
    exact .joined rfl hpause (executes_later ⟨_, hregister⟩) (registerQueue_executes hregister) rfl rfl
  · have hat : Held (w.at t).store := hheld
    have hchanges := execute_changes hat (fun input hi => hop ⟨input, hi⟩) hrun
    refine .changed (fun input hi => hop ⟨input, hi⟩) hpause ?_ ?_
    · rw [respond_clock]
      exact executes_later ⟨_, hrun⟩
    · rw [respond_store, during_respond]
      exact hchanges

theorem held_step (hheld : Held w.store) (h : Sequential E w l w') : Held w'.store := by
  obtain ⟨op, calls, result⟩ := l
  cases sequential_outcome hheld h with
  | changed _ _ _ hchanges => exact held_changes hchanges hheld
  | joined _ _ _ hout _ hend =>
    rw [hend, respond_store]
    dsimp only at hout
    cases hout with
    | refused hstill => exact hstill.store ▸ hheld
    | registered _ _ _ _ _ _ _ _ hv hrest =>
      rw [(announce_calm ⟨_, hrest⟩).store, hv.store]
      exact held_joined hheld

variable {start : Time} {tr : List (Transition World Executed)}

abbrev History := List (Transition World Executed)

theorem run_held (hrun : Run (Sequential E) (World.empty start) tr w) : Held w.store :=
  run_preserves (I := fun w : World => Held w.store) (by simp [Held, World.empty, Store.empty])
    held_step hrun

theorem run_outcome (hrun : Run (Sequential E) (World.empty start) tr w)
    (hstep : Sequential E w l w') : StepOutcome E w l w' :=
  sequential_outcome (run_held hrun) hstep

end SpotQueue.SequentialRun
