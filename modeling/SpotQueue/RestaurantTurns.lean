import SpotQueue.RestaurantAlone
import SpotQueue.Awaits.AsyncTurns

namespace SpotQueue.RestaurantTurns

open SpotQueue.Entity SpotQueue.Repository SpotQueue.Environment SpotQueue.UseCases SpotQueue.Frame
open SpotQueue.Seating SpotQueue.DurableRows SpotQueue.SequentialRun SpotQueue.RestaurantView
open SpotQueue.RestaurantAlone SpotQueue.Simulation
open SpotQueue.Awaits.AsyncProgram SpotQueue.Awaits.AsyncProtocol SpotQueue.Awaits.LabelledRun
open SpotQueue.Awaits.AsyncPool SpotQueue.Awaits.AsyncProjection SpotQueue.Awaits.AsyncTurns

variable {ι : Type} {E : Env} {ops : ι → Operation} {op : Operation} {w w' v : World}
  {tr : Interleaving ι} {q : Underway ι} {r : Uuid} {c : Call}

/-- Surroundings for operations one by one: time passes between two of them, and may
stand still within one. -/
def paced (E : Env) : Env := { E with tick := (· ≤ ·), pause := (· < ·) }

/-- What the operations read of the world is the same. -/
def SameData (w v : World) : Prop := v = { w with deliveries := v.deliveries }

theorem SameData.store_eq (h : SameData w v) : v.store = w.store := by rw [h]

theorem sameData_transacts {α : Type} {result : Except QueueError Store} {a : α} {x : Except QueueError α}
    (hw : SameData w v) (h : Transacts result a w x w') :
    ∃ v', Transacts result a v x v' ∧ SameData w' v' := by
  rw [hw]
  cases result with
  | error err =>
    obtain ⟨hx, rfl⟩ := h
    exact ⟨_, ⟨hx, rfl⟩, rfl⟩
  | ok s =>
    obtain ⟨hx, rfl⟩ := h
    exact ⟨_, ⟨hx, rfl⟩, rfl⟩

theorem sameData_performs {x : Except QueueError (Answer c)} (hw : SameData w v)
    (h : E.Performs c w x w') : ∃ v', E.Performs c v x v' ∧ SameData w' v' := by
  cases c with
  | createWithHistory | assignTablesWithHistory | updateStatusWithHistory | batchUpdatePositions =>
    have hclock : v.clock = w.clock := by rw [hw]
    simp only [Env.Performs] at h ⊢
    rw [hw.store_eq, hclock]
    exact sameData_transacts hw h
  | _ =>
    rw [hw]
    obtain ⟨hx, rfl⟩ := h
    exact ⟨_, ⟨hx, rfl⟩, rfl⟩

theorem unhurried_lt (hclock : ∀ a b, E.tick a b → a < b) {a b : Time} (h : (unhurried E).tick a b) :
    a < b := by
  induction h with
  | single h => exact hclock _ _ h
  | tail _ h ih => exact ih.trans (hclock _ _ h)

/-- The clock may go on to the time of the answer beforehand. -/
theorem answers_paced {x : Except QueueError (Answer c)} (hclock : ∀ a b, E.tick a b → a < b)
    (h : (unhurried E).Answers c w x w') : ∃ t, w.clock < t ∧ ∀ a ≤ t, ∀ v, SameData (w.at a) v →
      ∃ v', (paced E).Answers c v x v' ∧ SameData w' v' := by
  obtain ⟨t, ht, h⟩ := h
  refine ⟨t, unhurried_lt hclock ht, fun a ha v hv => ?_⟩
  have hat : SameData (w.at t) (v.at t) := by
    rw [SameData, hv]
    rfl
  have htick : (paced E).tick v.clock t := by
    rw [hv]
    exact ha
  obtain hp | ⟨hdependency, hfails, hx, rfl⟩ := h
  · obtain ⟨v', hp', hv'⟩ := sameData_performs hat hp
    exact ⟨v', ⟨t, htick, .inl hp'⟩, hv'⟩
  · exact ⟨v.at t, ⟨t, htick, .inr ⟨hdependency, hfails, hx, rfl⟩⟩, hat⟩

theorem execute_awaits (op : Operation) : ∃ c k, op.execute = .await c k := by
  cases op <;> exact ⟨_, _, rfl⟩

theorem sameData_respond (h : SameData w v) (x : Except QueueError Outcome) :
    SameData w (World.respond v x) := by
  unfold World.respond SameData
  split
  · rw [h]
    rfl
  · exact h

/-- The turn of an operation is one step of a sequential run. -/
theorem turn_sequential {calls : Calls} {x : Except QueueError Outcome}
    (hclock : ∀ a b, E.tick a b → a < b) (hw : SameData w v)
    (h : Traces (unhurried E).Answers op.execute w calls x w') :
    ∃ calls' v', Sequential (paced E) v ⟨op, calls', x⟩ v' ∧ SameData w' v' := by
  obtain ⟨c, k, hk⟩ := execute_awaits op
  rw [hk] at h
  cases h with
  | @await _ _ _ u _ y _ _ hc hrest =>
    obtain ⟨t, hlt, hfirst⟩ := answers_paced hclock hc
    have hat : SameData (w.at t) (v.at t) := by
      rw [SameData, hw]
      rfl
    obtain ⟨u', hc', hu⟩ := hfirst t le_rfl (v.at t) hat
    have hsim : ∀ {c s x u t}, True → SameData s t → (unhurried E).Answers c s x u →
        ∃ v, (paced E).Answers c t x v ∧ SameData u v := by
      intro c s x u t _ hs hc
      obtain ⟨b, hb, hnext⟩ := answers_paced hclock hc
      exact hnext s.clock hb.le t hs
    obtain ⟨calls', v', hrest', hend⟩ := traces_simulate (issues_any (k y)) hsim hu hrest
    have htraces : Traces (paced E).Answers op.execute (v.at t) (⟨v.at t, c, y, u'⟩ :: calls') x v' := by
      rw [hk]
      exact .await hc' hrest'
    refine ⟨_, _, .executes ?_ htraces, sameData_respond hend x⟩
    rw [hw]
    exact hlt

/-- Operations that run one after the other run sequentially. -/
theorem turns_sequential {s : World} {ts : List (Transition World (Turn ι Call Answer QueueError Outcome World))}
    (hclock : ∀ a b, E.tick a b → a < b)
    (h : Run (TakesTurn (unhurried E).Answers fun i => (ops i).execute) s ts w) :
    ∃ history v, Run (Sequential (paced E)) s history v ∧ SameData w v ∧
      List.Forall₂ (fun t step => step.label.operation = ops t.label.body ∧
        step.label.result = t.label.result) ts history := by
  induction h with
  | nil => exact ⟨[], s, .nil, rfl, .nil⟩
  | @snoc ts w w' l hrun hturn ih =>
    obtain ⟨history, v, hrun', hv, hsteps⟩ := ih
    obtain ⟨calls, v', hstep, hv'⟩ := turn_sequential hclock hv hturn
    exact ⟨_, v', .snoc hrun' hstep, hv', List.rel_append hsteps (.cons ⟨rfl, rfl⟩ .nil)⟩

section runs

/-- Where the operations for one restaurant do not overlap, whatever goes on at the
others meanwhile, they leave its rows as a sequential run of them would. -/
theorem restaurant_in_turn [DecidableEq ι] (hclock : ∀ a b, E.tick a b → a < b)
    (href : Referenced w.store) (hregulars : Regulars r ops w.store) (hfresh : FreshIds tr)
    (hrun : Run (Interleaves E.Answers) (together ops w) tr q)
    (hturn : InTurn (tr.filter fun step => For r ops step.label.body))
    (hdone : ∀ step ∈ tr, For r ops step.label.body → Completed (q.bodies step.label.body)) :
    ∃ history v, Run (Sequential (paced E)) (w.commit (view r w.store)) history v ∧
      v.store = view r q.state.store ∧ ∃ order : List ι, order.Nodup ∧
        order.Sublist ((tr.filter fun step => For r ops step.label.body).map (·.label.body)) ∧
        (∀ step ∈ tr, For r ops step.label.body → step.label.body ∈ order) ∧
        List.Forall₂ (fun i step => step.label.operation = ops i ∧ q.bodies i = settle step.label.result)
          order history := by
  obtain ⟨tr', u, hrun', htr, hmirrors⟩ := projected_run href hregulars hfresh hrun
  have hbodies := mirrored_bodies htr
  have hdone' : ∀ e ∈ tr', Completed ((only (For r ops) q.bodies u).bodies e.label.body) := by
    intro e he
    have hmem :
        e.label.body.val ∈ (tr.filter fun step => For r ops step.label.body).map (·.label.body) := by
      rw [← hbodies]
      exact List.mem_map_of_mem he
    obtain ⟨step, hstep, hbody⟩ := List.mem_map.mp hmem
    obtain ⟨hstep, hfor⟩ := List.mem_filter.mp hstep
    change Completed (q.bodies e.label.body.val)
    rw [← hbody]
    exact hdone step hstep (of_decide_eq_true hfor)
  obtain ⟨ts, hturns, hended, honce, horder, hall⟩ :=
    interleaves_turns hrun' (mirrored_inTurn htr hturn) hdone'
  obtain ⟨history, v, hhistory, hv, hsteps⟩ := turns_sequential hclock hturns
  refine ⟨history, v, hhistory, hv.store_eq.trans hmirrors.store,
    (ts.map (·.label.body)).map Subtype.val, honce.map Subtype.val_injective, ?_, ?_, ?_⟩
  · have h := horder.map Subtype.val
    rw [List.map_map (l := tr')] at h
    exact hbodies ▸ h
  · intro step hstep hfor
    have hmem : step.label.body ∈ tr'.map (·.label.body.val) := by
      rw [hbodies]
      exact List.mem_map_of_mem (List.mem_filter.mpr ⟨hstep, decide_eq_true hfor⟩)
    obtain ⟨e, he, hbody⟩ := List.mem_map.mp hmem
    exact List.mem_map.mpr ⟨_, hall _ (List.mem_map_of_mem he), hbody⟩
  · rw [List.forall₂_map_left_iff, List.forall₂_map_left_iff]
    refine ((List.forall₂_and_left _ _).mpr ⟨hended, hsteps⟩).imp fun t step h => ⟨h.2.1, ?_⟩
    rw [h.2.2]
    exact h.1

end runs

section witness

open SpotQueue.StaffIsolation

inductive Caller
  | guest | host | neighbour
deriving DecidableEq

/-- At restaurant A a user joins, then the host seats the party before; meanwhile
restaurant B lets its ticket go. -/
def sideBySide : Caller → Operation
  | .guest => joinOnline RESTAURANT_A "+15551234567"
  | .host => seatAt RESTAURANT_A TICKET_A "t"
  | .neighbour => skipBy RESTAURANT_B TICKET_B none

def servingInTurn : Interleaving Caller × Underway Caller :=
  interleave smooth.reply (together sideBySide twoRestaurants)
    ((List.replicate 14 [.guest, .neighbour]).flatten ++
      (List.replicate 20 [.neighbour, .host]).flatten)

theorem restaurant_in_turn_serving :
    ∃ history v, Run (Sequential (paced smooth.env))
        (twoRestaurants.commit (view (.ofText RESTAURANT_A) twoRestaurants.store)) history v ∧
      v.store = view (.ofText RESTAURANT_A) servingInTurn.2.state.store ∧ ∃ order : List Caller,
        order.Nodup ∧ order.Sublist ((servingInTurn.1.filter fun step =>
          For (.ofText RESTAURANT_A) sideBySide step.label.body).map (·.label.body)) ∧
        (∀ step ∈ servingInTurn.1, For (.ofText RESTAURANT_A) sideBySide step.label.body →
          step.label.body ∈ order) ∧
        List.Forall₂ (fun i step => step.label.operation = sideBySide i ∧
          servingInTurn.2.bodies i = settle step.label.result) order history := by
  have hfresh : FreshIds servingInTurn.1 := by
    unfold FreshIds
    decide +kernel
  refine restaurant_in_turn (E := smooth.env) ?_ ⟨by decide, by decide⟩
    (twoRestaurants_regulars fun i => by cases i <;> decide) hfresh
    (interleave_run smooth.reply_answers _ _) ?_ ?_
  · rintro a b rfl
    exact Nat.lt_succ_self a
  · unfold InTurn
    decide +kernel
  · decide +kernel

end witness

end SpotQueue.RestaurantTurns
