import SpotQueue.Registration

namespace SpotQueue.StoreChanges

open SpotQueue.Entity SpotQueue.Repository SpotQueue.Environment SpotQueue.Recalculator
open SpotQueue.UseCases SpotQueue.Frame SpotQueue.Guards SpotQueue.Line SpotQueue.Recalculation
open SpotQueue.Seating SpotQueue.Leaving SpotQueue.Registration
open SpotQueue.Awaits.AsyncProgram SpotQueue.Awaits.AsyncProtocol

variable {E : Env} {w u w' : World} {op : Operation} {D : Time → Prop} {s s' : Store} {α : Type}

/-- How a waiting row stops waiting, at times of the operation. -/
inductive Leaves (D : Time → Prop) (e : QueueEntry) : QueueEntry → Prop
  | seated {a b : Time} (ha : D a) (hb : D b) : Leaves D e (e.seated a b)
  | skipped {a : Time} (ha : D a) : Leaves D e (e.skipped a)
  | cancelled {status : QueueStatus} {a b : Time} (hs : status = .cancelled ∨ status = .noShow)
      (hb : D b) : Leaves D e (e.cancelled status a b)

/-- The row is rewritten, but nothing in it that the line depends on. -/
def Touches (e d : QueueEntry) : Prop :=
  d = { e with updatedAt := d.updatedAt, ringCount := d.ringCount, lastRingedAt := d.lastRingedAt }

/-- The single writes a staff operation is made of, as the tables see them. -/
inductive Change (E : Env) (op : Operation) (D : Time → Prop) : Store → Store → Prop
  | touch {s s' : Store} {e d : QueueEntry} (hmem : e ∈ s.entries)
      (howned : e.restaurantId = .ofText op.restaurantId) (hw : e.status = .waiting)
      (hd : Touches e d) (hentries : s'.entries = (s.put d).entries)
      (hassignments : s'.assignments = s.assignments) : Change E op D s s'
  | leave {s s' : Store} {e d : QueueEntry} {as : List TableAssignment} (hmem : e ∈ s.entries)
      (howned : e.restaurantId = .ofText op.restaurantId) (hw : e.status = .waiting)
      (hd : Leaves D e d) (hentries : s'.entries = (s.put d).entries)
      (hassignments : s'.assignments = s.assignments ++ as)
      (has : ∀ a ∈ as, a.queueEntryId = e.id ∧ a.releasedAt = none ∧ d.status = .seated) :
      Change E op D s s'
  | renumber {s s' : Store} {l : List QueueEntry} {etas : List Nat} {t : Time}
      (hline : IsLine s (.ofText op.restaurantId) l) (hetas : EtasOf E op.restaurantId l etas)
      (hentries : s'.entries = (s.updatePositions (recalculation l etas) t).entries)
      (hassignments : s'.assignments = s.assignments) : Change E op D s s'
  | reorder {s s' : Store} {l : List QueueEntry} {e : QueueEntry} {i k : Nat} {t : Time}
      (hshifts : op.Shifts e.id) (hline : IsLine s (.ofText op.restaurantId) l)
      (hi : l[i]? = some e) (hentries : s'.entries = (shiftedStore s l i k t).entries)
      (hassignments : s'.assignments = s.assignments) : Change E op D s s'

abbrev Changes (E : Env) (op : Operation) (D : Time → Prop) : Store → Store → Prop :=
  Relation.ReflTransGen (Change E op D)

theorem batched_changes (h : Batched E op.restaurantId s s') : Changes E op D s s' := by
  obtain ⟨-, rfl⟩ | ⟨l, etas, t, hline, hetas, rfl⟩ := h
  · exact .refl
  · exact .single (.renumber hline hetas rfl rfl)

theorem recalculate_changes {r : String} {rest : PositionRecalculationResult → UseCase α}
    {x : Except QueueError α} (hr : op.restaurantId = r) (hrest : ∀ res, Issues Quiet (rest res))
    (h : Executes E.Answers (recalculate r >>= rest) w x w') :
    Changes E op D w.store w'.store :=
  batched_changes (hr ▸ recalculate_batched hrest h)

theorem closeRanks_changes {q r : String} {rest : PositionRecalculationResult → UseCase α}
    {x : Except QueueError α} (hr : op.restaurantId = r) (hrest : ∀ res, Issues Quiet (rest res))
    (h : Executes E.Answers (closeRanks q r >>= rest) w x w') :
    Changes E op D w.store w'.store :=
  batched_changes (hr ▸ closeRanks_batched hrest h)

theorem tells_orNow (o : Option Time) : Issues Tells (orNow o) := by
  cases o with
  | none => exact issues_call (.inl rfl)
  | some t => exact issues_pure t

theorem issues_orNow (o : Option Time) : Issues Quiet (orNow o) :=
  issues_mono (fun _ => tells_quiet) (tells_orNow o)

theorem issues_notifySeated (input : SeatPartyInput) (e : QueueEntry) :
    Issues Quiet (notifySeated input e) :=
  issues_bind (issues_orNow _) fun _ => issues_bind (issues_call (.inr trivial)) fun _ =>
    issues_bind (issues_call (.inr trivial)) fun _ => issues_pure _

theorem issues_notifySkipped (input : SkipPartyInput) (e : QueueEntry) (reason : String)
    (position : Option Nat) : Issues Quiet (notifySkipped input e reason position) :=
  issues_bind (issues_call (.inr trivial)) fun _ =>
    issues_bind (issues_call (.inr trivial)) fun _ => issues_pure _

theorem tells_notifyCancelled (input : CancelQueueEntryInput) (e : QueueEntry) :
    Issues Tells (notifyCancelled input e) := by
  unfold notifyCancelled
  generalize isNoShow input.reason = noShow
  refine issues_bind (tells_orNow _) fun cancelledAt => issues_bind (issues_call (.inr trivial))
    fun _ => issues_bind (issues_call (.inr trivial)) fun _ => ?_
  cases noShow with
  | true => exact issues_bind (issues_call (.inr trivial)) fun _ => issues_pure _
  | false => exact issues_pure _

theorem issues_notifyCancelled (input : CancelQueueEntryInput) (e : QueueEntry) :
    Issues Quiet (notifyCancelled input e) :=
  issues_mono (fun _ => tells_quiet) (tells_notifyCancelled input e)

theorem issues_dispatch (e : QueueEntry) (link : Option String) : Issues Quiet (dispatch e link) := by
  rw [dispatch]
  split
  · split
    · exact issues_pure _
    · exact issues_attempt (issues_bind (issues_call (.inl trivial)) fun _ => issues_pure _)
        fun _ => issues_pure _
  · exact issues_pure _

theorem issues_notifyRung (e : QueueEntry) (link : Option String) :
    Issues Quiet (notifyRung e link) :=
  issues_bind (issues_dispatch e link) fun _ =>
    issues_bind (issues_attempt (issues_call (.inr trivial)) fun _ => issues_pure _) fun _ =>
      issues_bind (issues_orNow _) fun _ => issues_pure _

theorem issues_publishTraining (e : QueueEntry) (ahead : Option Nat) :
    Issues Quiet (publishTraining e ahead) := by
  cases ahead with
  | none => exact issues_pure _
  | some n =>
    exact issues_bind (issues_orNow _) fun _ =>
      issues_attempt (issues_call (.inl trivial)) fun _ => issues_pure _

theorem issues_afterAssigning (input : AssignTablesInput) (ahead : Option Nat)
    (tableIds : List String) (e : QueueEntry) :
    Issues Quiet (afterAssigning input ahead tableIds e) := by
  refine issues_bind (issues_attempt (issues_removeLiveEntry _) fun _ => issues_pure _) fun _ =>
    issues_bind ?_ fun _ => issues_bind (issues_publishTraining _ _) fun _ =>
      issues_bind (issues_orNow _) fun _ => issues_pure _
  exact issues_attempt (issues_bind (issues_call (.inr trivial)) fun _ =>
    issues_call (.inr trivial)) fun _ => issues_pure _

theorem seating_changes {r q : String} {counts : QueueEntry → List AssignTableItem}
    {tableIds : List String} {assignedBy : String} {rest : QueueEntry → UseCase α} {calls : Calls}
    {x : Except QueueError α} (h : SeatingOutcome E r q counts tableIds assignedBy rest w calls x w')
    (hr : op.restaurantId = r) (hrest : ∀ e z post, Traces E.Answers (rest e) z post x w' →
      Changes E op (During E w w') z.store w'.store) : Changes E op (During E w w') w.store w'.store := by
  cases h with
  | refused hstill _ => exact hstill.store ▸ .refl
  | stranded _ _ hstill => exact hstill.store ▸ .refl
  | seated hfound ha hb _ hstore h =>
    subst hr
    have hlater := executes_later ⟨_, h⟩
    refine .head ?_ (hrest _ _ _ h)
    rw [hstore.store]
    refine .leave hfound.mem hfound.restaurant hfound.waiting
      (.seated (during_widen .refl ha hlater) (during_widen .refl hb hlater)) rfl rfl fun a ha => ?_
    obtain ⟨tableId, -, rfl⟩ := List.mem_map.mp ha
    exact ⟨rfl, rfl, rfl⟩

/-- The status row of a reordering repeats what its batch has stored. -/
theorem shifted_row {r : Uuid} {l : List QueueEntry} {i k : Nat} {e : QueueEntry} {t a : Time}
    (hline : IsLine s r l) (hi : l[i]? = some e) :
    ∃ d ∈ (shiftedStore s l i k t).entries, d.restaurantId = r ∧ d.status = .waiting ∧
      e.moved (targetIndex l i k + 1) a = { d with updatedAt := a } := by
  have hperm := shiftedLine_perm hi k
  have hkey : ((shiftedLine l i k).map (·.id)).Nodup :=
    (hperm.map _).nodup_iff.mpr (isLine_nodup hline)
  have hmem := (isLine_mem hline).mp (List.mem_of_getElem? hi)
  refine ⟨{ e with position := some (targetIndex l i k + 1), updatedAt := t }, ?_, ?_, ?_, rfl⟩
  · rw [shiftedStore, Store.updatePositions_entries]
    exact List.mem_map.mpr ⟨e, hmem.1, reordered_row hkey (shiftedLine_target hi k)⟩
  · exact hmem.2.1
  · exact hmem.2.2

theorem shifted_touch {r : Uuid} {l : List QueueEntry} {i k : Nat} {e : QueueEntry} {t a : Time}
    (hline : IsLine s r l) (hi : l[i]? = some e) :
    ∃ d ∈ (shiftedStore s l i k t).entries, d.restaurantId = r ∧ d.status = .waiting ∧
      Touches d (e.moved (targetIndex l i k + 1) a) := by
  obtain ⟨d, hd, hr, hw, hrow⟩ := shifted_row (a := a) hline hi
  exact ⟨d, hd, hr, hw, by rw [Touches, hrow]⟩

theorem skipParty_changes {input : SkipPartyInput} {x : Except QueueError SkipPartyOutput}
    (h : SkipOutcome E input w x w') :
    Changes E (.skipParty input) (During E w w') w.store w'.store := by
  cases h with
  | refused hstill => exact hstill.store ▸ .refl
  | shifted hfound hk hline hi hu _ hstill =>
    rw [hstill.store, hu.store]
    exact .single (.reorder ⟨hfound.id.symm, _, hk⟩ hline hi rfl rfl)
  | @reordered _ _ _ _ _ _ u v _ hfound hk hline hi hu hv hrest =>
    have hshift : Change E (.skipParty input) (During E w w') w.store u.store :=
      .reorder ⟨hfound.id.symm, _, hk⟩ hline hi (by rw [hu.store]) (by simp [hu.store, shiftedStore])
    have htouch : Change E (.skipParty input) (During E w w') u.store v.store := by
      obtain ⟨d, hd, howned, hw, htouches⟩ := shifted_touch hline hi
      exact .touch (hu.store ▸ hd) howned hw htouches (by rw [hv.store]; rfl) (by simp [hv.store])
    have htail : Changes E (.skipParty input) (During E w w') v.store w'.store :=
      recalculate_changes rfl (fun _ => issues_notifySkipped _ _ _ _) hrest
    exact .head hshift (.head htouch htail)
  | @skipped _ _ _ v _ hfound ha hv hrest =>
    have hleave : Change E (.skipParty input) (During E w w') w.store v.store :=
      .leave hfound.mem hfound.restaurant hfound.waiting
        (.skipped (during_widen .refl ha (executes_later hrest))) (by rw [hv.store]; rfl)
        (by simp [hv.store]) (List.forall_mem_nil _)
    exact .head hleave (closeRanks_changes rfl (fun _ => issues_notifySkipped _ _ _ _) hrest)

theorem targetStatus_cases (reason : String) :
    targetStatus reason = .cancelled ∨ targetStatus reason = .noShow := by
  rw [targetStatus]
  split
  · exact .inr rfl
  · exact .inl rfl

theorem cancelQueueEntry_changes {input : CancelQueueEntryInput}
    {x : Except QueueError CancelQueueEntryOutput} (h : CancelOutcome E input w x w') :
    Changes E (.cancelQueueEntry input) (During E w w') w.store w'.store := by
  cases h with
  | refused hstill => exact hstill.store ▸ .refl
  | @cancelled _ _ _ _ v _ hfound hb hv hrest =>
    have hleave : Change E (.cancelQueueEntry input) (During E w w') w.store v.store :=
      .leave hfound.mem hfound.restaurant hfound.waiting
        (.cancelled (targetStatus_cases _) (during_widen .refl hb (executes_later hrest)))
        (by rw [hv.store]; rfl)
        (by simp [hv.store]) (List.forall_mem_nil _)
    exact .head hleave (closeRanks_changes rfl (fun _ => issues_notifyCancelled _ _) hrest)

theorem ringCustomer_changes {input : RingCustomerInput} {x : Except QueueError RingCustomerOutput}
    (h : RingOutcome E input w x w') :
    Changes E (.ringCustomer input) (During E w w') w.store w'.store := by
  cases h with
  | refused hstill => exact hstill.store ▸ .refl
  | @rung found a b _ _ _ hfound hv hrest =>
    have hd : Touches found (found.rung a b) := rfl
    rw [(calm_of_issues (issues_notifyRung _ _) hrest).store, hv.store]
    exact .single (.touch hfound.mem hfound.restaurant hfound.waiting hd rfl rfl)

end SpotQueue.StoreChanges
