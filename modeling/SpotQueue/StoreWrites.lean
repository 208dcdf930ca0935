import SpotQueue.SequentialRun

namespace SpotQueue.StoreWrites

open SpotQueue.Entity SpotQueue.Repository SpotQueue.Environment SpotQueue.Recalculator
open SpotQueue.UseCases SpotQueue.Frame SpotQueue.Guards SpotQueue.Line SpotQueue.Recalculation
open SpotQueue.Seating SpotQueue.Leaving SpotQueue.Registration SpotQueue.StoreChanges
open SpotQueue.RowChanges SpotQueue.SequentialRun
open SpotQueue.Awaits.AsyncProgram SpotQueue.Awaits.AsyncProtocol SpotQueue.Awaits.LabelledRun

variable {E : Env} {w w' : World} {op : Operation} {s s' : Store} {e d : QueueEntry} {α : Type}

/-- The tables a seating names. -/
def seatedTables : Operation → Option (List String)
  | .seatParty input => some input.tableIds
  | .assignTable input => some (input.tables.map (·.tableId))
  | _ => none

/-- The rows updateStatusWithHistory is handed for a party that waits. -/
inductive StatusRow (e : QueueEntry) : QueueEntry → Prop
  | skipped (updatedAt : Time) : StatusRow e (e.skipped updatedAt)
  | cancelled {status : QueueStatus} (hs : status = .cancelled ∨ status = .noShow)
      (cancelledAt updatedAt : Time) : StatusRow e (e.cancelled status cancelledAt updatedAt)
  | shifted (updatedAt : Time) : StatusRow e { e with updatedAt := updatedAt }

/-- The transactions of an operation, each as what it makes of all three tables. -/
inductive Write (op : Operation) (s : Store) : Store → Prop
  | joined {props : CreateQueueEntryProps} {id : Uuid} {joinedAt now : Time} {changedBy : String}
      (hposition : 1 ≤ props.position) (hfresh : id ∉ s.entries.map (·.id)) :
      Write op s (joinedStore s (create props id joinedAt) hfresh changedBy now)
  | seated {e : QueueEntry} {seatedAt updatedAt now : Time} {tableIds : List String}
      {assignedBy : String} (hop : seatedTables op = some tableIds) (hmem : e ∈ s.entries)
      (hw : e.status = .waiting) :
      Write op s (seatedStore s (e.seated seatedAt updatedAt) tableIds assignedBy e.status now)
  | status {e d : QueueEntry} {changedBy : String} {reason notes : Option String} {now : Time}
      (hmem : e ∈ s.entries) (hw : e.status = .waiting) (hd : StatusRow e d) :
      Write op s (statusStore s ⟨d, e.status, changedBy, reason, notes⟩ now)
  | rung {e : QueueEntry} {lastRingedAt updatedAt : Time} (hmem : e ∈ s.entries)
      (hw : e.status = .waiting) (honline : e.registrationType = .online) :
      Write op s (s.put (e.rung lastRingedAt updatedAt))
  | renumbered {r : Uuid} {l : List QueueEntry} {etas : List Nat} {now : Time}
      (hline : IsLine s r l) (hlen : etas.length = l.length) :
      Write op s (s.updatePositions (recalculation l etas) now)
  | reordered {r : Uuid} {l : List QueueEntry} {i k : Nat} {e : QueueEntry} {now : Time}
      (hline : IsLine s r l) (hi : l[i]? = some e) : Write op s (shiftedStore s l i k now)

abbrev Writes (op : Operation) : Store → Store → Prop := Relation.ReflTransGen (Write op)

theorem batched_writes {r : String} (h : Batched E r s s') : Writes op s s' := by
  obtain ⟨-, rfl⟩ | ⟨l, etas, t, hline, hetas, rfl⟩ := h
  · exact .refl
  · exact .single (.renumbered hline (etasOf_length hetas))

theorem recalculate_writes {r : String} {rest : PositionRecalculationResult → UseCase α}
    {x : Except QueueError α} (hrest : ∀ res, Issues Quiet (rest res))
    (h : Executes E.Answers (recalculate r >>= rest) w x w') : Writes op w.store w'.store :=
  batched_writes (recalculate_batched hrest h)

theorem closeRanks_writes {q r : String} {rest : PositionRecalculationResult → UseCase α}
    {x : Except QueueError α} (hrest : ∀ res, Issues Quiet (rest res))
    (h : Executes E.Answers (closeRanks q r >>= rest) w x w') : Writes op w.store w'.store :=
  batched_writes (closeRanks_batched hrest h)

theorem seating_writes {r q : String} {counts : QueueEntry → List AssignTableItem}
    {tableIds : List String} {assignedBy : String} {rest : QueueEntry → UseCase α} {calls : Calls}
    {x : Except QueueError α} (hop : seatedTables op = some tableIds)
    (h : SeatingOutcome E r q counts tableIds assignedBy rest w calls x w')
    (hrest : ∀ e z post, Traces E.Answers (rest e) z post x w' → Writes op z.store w'.store) :
    Writes op w.store w'.store := by
  cases h with
  | refused hstill _ => exact hstill.store ▸ .refl
  | stranded _ _ hstill => exact hstill.store ▸ .refl
  | seated hfound _ _ _ hstore h =>
    refine .head ?_ (hrest _ _ _ h)
    rw [hstore.store]
    exact .seated hop hfound.mem hfound.waiting

theorem skipParty_writes {input : SkipPartyInput} {x : Except QueueError SkipPartyOutput}
    (h : SkipOutcome E input w x w') : Writes op w.store w'.store := by
  cases h with
  | refused hstill => exact hstill.store ▸ .refl
  | shifted _ _ hline hi hu _ hstill =>
    rw [hstill.store, hu.store]
    exact .single (.reordered hline hi)
  | @reordered _ _ _ _ _ _ u v _ hfound _ hline hi hu hv hrest =>
    have hshift : Write op w.store u.store := hu.store ▸ .reordered hline hi
    have hstatus : Write op u.store v.store := by
      obtain ⟨d, hd, -, hw, hrow⟩ := shifted_row hline hi
      rw [hv.store, hrow, hfound.waiting, ← hw]
      exact .status (hu.store ▸ hd) hw (.shifted _)
    exact .head hshift (.head hstatus (recalculate_writes (fun _ => issues_notifySkipped _ _ _ _) hrest))
  | @skipped _ _ _ v _ hfound _ hv hrest =>
    have hleave : Write op w.store v.store :=
      hv.store ▸ .status hfound.mem hfound.waiting (.skipped _)
    exact .head hleave (closeRanks_writes (fun _ => issues_notifySkipped _ _ _ _) hrest)

theorem cancelQueueEntry_writes {input : CancelQueueEntryInput}
    {x : Except QueueError CancelQueueEntryOutput} (h : CancelOutcome E input w x w') :
    Writes op w.store w'.store := by
  cases h with
  | refused hstill => exact hstill.store ▸ .refl
  | @cancelled _ _ _ _ v _ hfound _ hv hrest =>
    have hleave : Write op w.store v.store :=
      hv.store ▸ .status hfound.mem hfound.waiting (.cancelled (targetStatus_cases _) _ _)
    exact .head hleave (closeRanks_writes (fun _ => issues_notifyCancelled _ _) hrest)

/-- Only a party that registered online is ever rung. -/
theorem yields_ring_online (e : QueueEntry) :
    Yields (fun _ => e.registrationType = .online) (ring e) := by
  apply yields_then
  intro _
  change Yields _ (if _ then _ else _)
  split
  · exact yields_throw _
  · rename_i htype
    refine yields_then fun _ => yields_then fun _ => yields_pure ?_
    cases hregistered : e.registrationType with
    | online => rfl
    | walkIn => exact (htype hregistered).elim

theorem ringCustomer_writes {input : RingCustomerInput} {x : Except QueueError RingCustomerOutput}
    (h : Executes E.Answers (ringCustomer input) w x w') : Writes op w.store w'.store := by
  obtain ⟨found, u, hlookup, hwu, h⟩ | ⟨-, hstill⟩ := reads_bind (issues_findOwned _ _) h
  swap
  · exact hstill.store ▸ .refl
  obtain ⟨-, hfind, -⟩ := findOwned_executes hlookup
  obtain ⟨e, v, hring, huv, h⟩ | ⟨-, hstill⟩ := reads_bind (issues_ring found) h
  swap
  · exact (still_trans hwu hstill).store ▸ .refl
  have honline := yields_executes (yields_ring_online found) hring
  obtain ⟨-, hwaiting, a, b, rfl⟩ := ring_executes hring
  have hwv := still_trans hwu huv
  obtain ⟨_, z, hsave, h⟩ | ⟨err, -, hsave⟩ := executes_call_bind h
  swap
  · exact (still_trans hwv (rejected_still hsave)).store ▸ .refl
  have hmem : found ∈ v.store.entries := hwv.store ▸ (find_eq_some.mp hfind).1
  obtain ⟨t, -, -, rfl⟩ := answers_ok hsave
  rw [(calm_of_issues (issues_notifyRung _ _) h).store, ← hwv.store]
  have hsaved : v.store.save (found.rung a b) = v.store.put (found.rung a b) :=
    save_eq_put hmem rfl rfl
  change Writes op v.store (v.store.save (found.rung a b))
  rw [hsaved]
  exact .single (.rung hmem hwaiting honline)

theorem registerQueue_writes {input : RegisterQueueInput} {calls : Calls}
    {x : Except QueueError RegisterQueueOutput} (h : RegisterOutcome E input w calls x w') :
    Writes op w.store w'.store := by
  cases h with
  | refused hstill => exact hstill.store ▸ .refl
  | registered _ _ _ he _ hfresh _ _ hv hrest =>
    subst he
    rw [(announce_calm ⟨_, hrest⟩).store, hv.store]
    exact .single (.joined (Nat.le_add_left 1 _) hfresh)

theorem execute_writes {calls : Calls} {r : Except QueueError Outcome} (hheld : Held w.store)
    (h : Traces E.Answers op.execute w calls r w') : Writes op w.store w'.store := by
  cases op with
  | register input =>
    obtain ⟨x, h, -⟩ := traces_map h
    exact registerQueue_writes (registerQueue_executes h)
  | seatParty input =>
    obtain ⟨x, h, -⟩ := traces_map h
    apply seating_writes rfl (seatParty_executes h)
    intro e z post h
    exact closeRanks_writes (fun _ => issues_notifySeated _ _) ⟨_, h⟩
  | assignTable input =>
    obtain ⟨x, h, -⟩ := traces_map h
    obtain ⟨ahead, h⟩ := assignTable_executes h
    apply seating_writes rfl h
    intro e z post h
    rw [(calm_of_issues (issues_afterAssigning _ _ _ _) ⟨_, h⟩).store]
  | skipParty input =>
    obtain ⟨x, h, -⟩ := traces_map h
    exact skipParty_writes (skipParty_executes ⟨_, h⟩)
  | cancelQueueEntry input =>
    obtain ⟨x, h, -⟩ := traces_map h
    exact cancelQueueEntry_writes (cancelQueueEntry_executes (held_tableFree hheld) ⟨_, h⟩)
  | ringCustomer input =>
    obtain ⟨x, h, -⟩ := traces_map h
    exact ringCustomer_writes ⟨_, h⟩

theorem sequential_writes {l : Executed} (hheld : Held w.store) (h : Sequential E w l w') :
    Writes l.operation w.store w'.store := by
  cases h with
  | @executes u op calls r t hpause hrun =>
    rw [respond_store]
    exact execute_writes (w := w.at t) hheld hrun

variable {start : Time} {tr : History} {I : Store → Prop} {G : Operation → Prop}

theorem writes_preserve (hkeep : ∀ {s s'}, Write op s s' → I s → I s') (h : Writes op s s')
    (hs : I s) : I s' := by
  induction h with
  | refl => exact hs
  | tail _ hlast ih => exact hkeep hlast ih

/-- What holds of the empty store and is kept by every write holds after every
operation of a sequential run, whichever calls were rejected. -/
theorem run_writes (hinit : I .empty) (hkeep : ∀ {op s s'}, G op → Write op s s' → I s → I s')
    (hrun : Run (Sequential E) (World.empty start) tr w) (hG : ∀ step ∈ tr, G step.label.operation) :
    I w.store :=
  run_invariant (I := fun _ w => I w.store) (G := fun step => G step.label.operation) hinit
    (fun hrun hI hstep hG =>
      writes_preserve (hkeep hG) (sequential_writes (run_held hrun) hstep) hI) hrun hG

end SpotQueue.StoreWrites
