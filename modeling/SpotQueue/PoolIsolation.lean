import SpotQueue.StaffIsolation

namespace SpotQueue.PoolIsolation

open SpotQueue.Entity SpotQueue.Repository SpotQueue.Environment SpotQueue.UseCases
open SpotQueue.Tenancy SpotQueue.StaffIsolation SpotQueue.Simulation
open SpotQueue.Awaits.AsyncProgram SpotQueue.Awaits.AsyncProtocol SpotQueue.Awaits.LabelledRun
open SpotQueue.Awaits.AsyncPool

variable {ι : Type} [DecidableEq ι] {E : Env} {ops : ι → Operation} {w : World}
  {tr : Interleaving ι} {q : Underway ι} {r q' : String} {s s' : Store} {id u : Uuid}

theorem minds_execute (op : Operation) : Minds op.restaurantId (fun _ => False) op.execute := by
  cases op with
  | register input => exact minds_bind (minds_registerQueue input) fun _ _ => trivial
  | seatParty input => exact minds_bind (minds_seatParty input) fun _ _ => trivial
  | assignTable input => exact minds_bind (minds_assignTable input) fun _ _ => trivial
  | skipParty input => exact minds_bind (minds_skipParty input) fun _ _ => trivial
  | cancelQueueEntry input => exact minds_bind (minds_cancelQueueEntry input) fun _ _ => trivial
  | ringCustomer input => exact minds_bind (minds_ringCustomer input) fun _ _ => trivial

/-- No write moves a ticket from one restaurant to another, whoever makes it. -/
theorem owns_kept (h : Owns r s id) (hs : Isolated q' s s') : Owns r s' id := by
  obtain ⟨e, he, hid, hhome⟩ := h
  obtain ⟨d, hd, hid', hhome'⟩ := hs.homes e he
  exact ⟨d, hd, hid'.trans hid, hhome' ▸ hhome⟩

/-- Every call, whatever else is under way when it is answered, leaves the
restaurants alone that its own operation is not for. -/
theorem steps_isolated (hrun : Run (Interleaves E.Answers) (together ops w) tr q) :
    ∀ step ∈ tr, Isolated (ops step.label.body).restaurantId step.before.state.store
      step.after.state.store := by
  suffices h : ∃ seen : ι → Uuid → Prop, (∀ i, Minds (ops i).restaurantId (seen i) (q.bodies i)) ∧
      (∀ i id, seen i id → Owns (ops i).restaurantId q.state.store id) ∧
      ∀ step ∈ tr, Isolated (ops step.label.body).restaurantId step.before.state.store
        step.after.state.store from h.choose_spec.2.2
  refine interleaves_indexed (G := fun _ => True)
    (J := fun tr (seen : ι → Uuid → Prop) v => (∀ i id, seen i id → Owns (ops i).restaurantId v.store id) ∧
      ∀ step ∈ tr, Isolated (ops step.label.body).restaurantId step.before.state.store
        step.after.state.store)
    (fun i => minds_execute (ops i)) ⟨fun _ _ h => h.elim, List.forall_mem_nil _⟩ ?_ hrun
    fun _ _ => trivial
  rintro tr seen q i c x q' hallows ⟨hseen, hsteps⟩ hanswers -
  obtain ⟨hexpects, hnext⟩ := answers_seen (hseen i) hanswers
  have hstep := answers_isolated hallows (hseen i) hanswers
  refine ⟨hexpects, fun j id hid => ?_, ?_⟩
  · by_cases hj : j = i
    · subst hj
      rw [Function.update_self] at hid
      exact owns_kept (hnext id hid) hstep
    · rw [Function.update_of_ne hj] at hid
      exact owns_kept (hseen j id hid) hstep
  · simpa [or_imp, forall_and] using ⟨hsteps, hstep⟩

/-- None of the operations is for the restaurant. -/
def Uninvolved (ops : ι → Operation) (u : Uuid) : Prop := ∀ i, .ofText (ops i).restaurantId ≠ u

/-- The tickets of one restaurant with all that is stored about them. -/
structure Untouched (u : Uuid) (s s' : Store) : Prop where
  rows : ∀ e : QueueEntry, e.restaurantId = u → (e ∈ s'.entries ↔ e ∈ s.entries)
  assignments : ∀ e ∈ s.entries, e.restaurantId = u → assignmentsOf s' e.id = assignmentsOf s e.id
  history : ∀ e ∈ s.entries, e.restaurantId = u → historyOf s' e.id = historyOf s e.id

theorem untouched_refl (s : Store) : Untouched u s s :=
  ⟨fun _ _ => .rfl, fun _ _ _ => rfl, fun _ _ _ => rfl⟩

theorem untouched_step {t : Store} (h : Untouched u s t) (hstep : Isolated r t s')
    (hr : .ofText r ≠ u) : Untouched u s s' := by
  have hforeign : ∀ e : QueueEntry, e.restaurantId = u → Foreign r e := by
    rintro e rfl rfl
    exact hr (Uuid.ofText_text _)
  refine ⟨fun e he => ?_, fun e he hu => ?_, fun e he hu => ?_⟩
  · rw [← h.rows e he]
    exact ⟨fun hmem => hstep.added e hmem (he ▸ hr.symm), fun hmem => hstep.rows e hmem (hforeign e he)⟩
  · rw [hstep.assignments e ((h.rows e hu).mpr he) (hforeign e hu), h.assignments e he hu]
  · rw [hstep.history e ((h.rows e hu).mpr he) (hforeign e hu), h.history e he hu]

theorem uninvolved_untouched (hu : Uninvolved ops u)
    (hrun : Run (Interleaves E.Answers) (together ops w) tr q) :
    Untouched u w.store q.state.store :=
  run_invariant (I := fun _ q => Untouched u w.store q.state.store)
    (G := fun step => Isolated (ops step.label.body).restaurantId step.before.state.store
      step.after.state.store)
    (untouched_refl _) (fun _ h _ hstep => untouched_step h hstep (hu _)) hrun (steps_isolated hrun)

/-- In any interleaving of any operations, whichever calls fail, each answered call
changes nothing of another restaurant than the one its operation is for, and a
restaurant that no operation is for keeps its tickets, assignments and history. -/
theorem interleaving_isolated (hrun : Run (Interleaves E.Answers) (together ops w) tr q) :
    (∀ step ∈ tr, Isolated (ops step.label.body).restaurantId step.before.state.store
      step.after.state.store) ∧
    ∀ u, Uninvolved ops u → Untouched u w.store q.state.store :=
  ⟨steps_isolated hrun, fun _ hu => uninvolved_untouched hu hrun⟩

/-- One host of restaurant A cancels its ticket while another lets it go. -/
def bothAtA : Bool → Operation
  | false => cancelFor RESTAURANT_A TICKET_A "WALK_OUT"
  | true => skipBy RESTAURANT_A TICKET_A none

def inTurns : Interleaving Bool × Underway Bool :=
  interleave smooth.reply (together bothAtA twoRestaurants) ((List.replicate 16 [false, true]).flatten)

theorem interleaving_isolated_inTurns :
    Untouched (.ofText RESTAURANT_B) twoRestaurants.store inTurns.2.state.store :=
  (interleaving_isolated (interleave_run smooth.reply_answers _ _)).2 _ (by
    intro i
    cases i <;> decide)

end SpotQueue.PoolIsolation
