import SpotQueue.StoreChanges

namespace SpotQueue.TableCalls

open SpotQueue.Entity SpotQueue.Repository SpotQueue.Environment SpotQueue.Recalculator
open SpotQueue.UseCases SpotQueue.Frame SpotQueue.Guards SpotQueue.Recalculation SpotQueue.Seating
open SpotQueue.Registration SpotQueue.StoreChanges
open SpotQueue.Awaits.AsyncProgram SpotQueue.Awaits.AsyncProtocol

variable {E : Env} {w u w' : World} {calls : Calls} {α : Type}

/-- Calls that touch neither the occupancy nor the assignments. -/
def LeavesTables : Call → Prop
  | .assignTables _ _ | .releaseTables _ _ | .assignTablesWithHistory _ _ _ _
  | .releaseTableAssignments _ => False
  | _ => True

structure SameTables (w w' : World) : Prop where
  occupancy : w'.occupancy = w.occupancy
  assignments : w'.store.assignments = w.store.assignments

theorem sameTables_trans (h₁ : SameTables w u) (h₂ : SameTables u w') : SameTables w w' :=
  ⟨h₂.occupancy.trans h₁.occupancy, h₂.assignments.trans h₁.assignments⟩

theorem sameTables_of_calm (h : Calm E w w') : SameTables w w' :=
  ⟨h.occupancy, by rw [h.store]⟩

theorem transacts_sameTables {β : Type} {result : Except QueueError Store} {a : β} {t : Time}
    {x : Except QueueError β} (hs : ∀ s, result = .ok s → s.assignments = w.store.assignments)
    (h : Transacts result a (w.at t) x w') : SameTables w w' := by
  cases result with
  | error e => exact h.2 ▸ ⟨rfl, rfl⟩
  | ok s => exact h.2 ▸ ⟨rfl, hs s rfl⟩

theorem answers_sameTables {c : Call} {x : Except QueueError (Answer c)} (hc : LeavesTables c)
    (h : E.Answers c w x w') : SameTables w w' := by
  by_cases hquiet : Quiet c
  · exact sameTables_of_calm (answers_calm hquiet h)
  obtain ⟨t, ht, hp | ⟨-, -, -, rfl⟩⟩ := h
  swap
  · exact ⟨rfl, rfl⟩
  cases c with
  | createWithHistory e changedBy =>
    refine transacts_sameTables (fun s hs => ?_) hp
    obtain ⟨-, -, -, rfl⟩ := Store.createWithHistory_ok.mp hs
    rfl
  | updateStatusWithHistory params =>
    refine transacts_sameTables (fun s hs => ?_) hp
    obtain ⟨-, rfl⟩ := Store.updateStatusWithHistory_ok.mp hs
    rfl
  | batchUpdatePositions us =>
    refine transacts_sameTables (fun s hs => ?_) hp
    obtain ⟨-, rfl⟩ := Store.batchUpdatePositions_ok.mp hs
    rfl
  | save e => exact hp.2 ▸ ⟨rfl, Store.save_assignments _ _⟩
  | assignTables | releaseTables | assignTablesWithHistory | releaseTableAssignments => exact hc.elim
  | _ => exact (hquiet (by simp [Quiet, Reads, Talks])).elim

theorem sameTables_of_issues {p : UseCase α} {x : Except QueueError α} (hp : Issues LeavesTables p)
    (h : Executes E.Answers p w x w') : SameTables w w' :=
  issues_executes (R := SameTables) (fun _ => ⟨rfl, rfl⟩) sameTables_trans
    (fun hc h => answers_sameTables hc h) hp h

theorem reads_leavesTables {c : Call} (h : Reads c) : LeavesTables c := by
  cases c <;> first | exact h.elim | exact trivial

theorem renumbers_leavesTables {c : Call} (h : Renumbers c) : LeavesTables c := by
  obtain (h | h) | ⟨us, rfl⟩ := h
  · exact reads_leavesTables h
  · cases c <;> first | exact h.elim | exact trivial
  · exact trivial

theorem leavesTables_not_seating {c : Call} (h : LeavesTables c) : ¬ SeatingTransaction c := by
  cases c <;> first | exact h.elim | exact id

theorem issues_registerQueue (input : RegisterQueueInput) :
    Issues LeavesTables (registerQueue input) := by
  refine issues_bind (issues_mono (fun _ h => reads_leavesTables (admission_reads h))
    (issues_checkAdmission input)) fun _ => issues_bind (issues_call trivial) fun metrics =>
    issues_bind (issues_call trivial) fun minutes => issues_bind (issues_call trivial) fun id =>
    issues_bind (issues_call trivial) fun now => issues_bind (issues_call trivial) fun persisted =>
    issues_bind (issues_mono ?_ (issues_announce _ _ _ _)) fun _ => issues_pure _
  exact fun c h => renumbers_leavesTables (.inl (announcement_quiet h))

theorem issues_renumbering {q r : String} {rest : PositionRecalculationResult → UseCase α}
    (hrest : ∀ res, Issues Quiet (rest res)) :
    Issues LeavesTables (recalculate r >>= rest) ∧ Issues LeavesTables (closeRanks q r >>= rest) := by
  have hrest' : ∀ res, Issues LeavesTables (rest res) :=
    fun res => issues_mono (fun c h => renumbers_leavesTables (.inl h)) (hrest res)
  have hrecalculate : Issues LeavesTables (recalculate r) :=
    issues_mono (fun c => renumbers_leavesTables) (issues_recalculate r)
  have hremove : Issues LeavesTables (removeLiveEntry q) :=
    issues_mono (fun c h => renumbers_leavesTables (.inl h)) (issues_removeLiveEntry q)
  exact ⟨issues_bind hrecalculate hrest', issues_bind (issues_bind hremove fun _ => hrecalculate) hrest'⟩

theorem issues_skipOut (input : SkipPartyInput) (found : QueueEntry) :
    Issues LeavesTables (skipOut input found) := by
  refine issues_bind (issues_mono (fun _ => reads_leavesTables) (issues_skip found)) fun e =>
    issues_bind (issues_call trivial) fun persisted => ?_
  exact (issues_renumbering fun _ => issues_notifySkipped _ _ _ _).2

theorem issues_reorder (input : SkipPartyInput) (found : QueueEntry) (k : Nat)
    (l : List QueueEntry) (i : Nat) : Issues LeavesTables (reorder input found k l i) := by
  refine issues_bind (issues_mono (fun _ => reads_leavesTables) (issues_updatePosition _ _))
    fun e => issues_bind ?_ fun _ => issues_bind (issues_call trivial) fun persisted => ?_
  · rw [Recalculator.batchUpdatePositions]
    split
    · exact issues_pure _
    · exact issues_call trivial
  · exact (issues_renumbering (q := "") fun _ => issues_notifySkipped _ _ _ _).1

theorem issues_skipParty (input : SkipPartyInput) : Issues LeavesTables (skipParty input) := by
  refine issues_bind (issues_mono (fun _ => reads_leavesTables) (issues_findOwned _ _)) fun e =>
    issues_bind (issues_mono (fun _ => reads_leavesTables) (issues_requireWaiting e)) fun _ => ?_
  split
  · apply issues_bind (issues_call trivial)
    intro l
    split
    · exact issues_reorder _ _ _ _ _
    · exact issues_skipOut _ _
  · exact issues_skipOut _ _

theorem issues_ringCustomer (input : RingCustomerInput) :
    Issues LeavesTables (ringCustomer input) :=
  issues_bind (issues_mono (fun _ => reads_leavesTables) (issues_findOwned _ _)) fun e =>
    issues_bind (issues_mono (fun _ => reads_leavesTables) (issues_ring e)) fun _ =>
      issues_bind (issues_call trivial) fun _ =>
        issues_mono (fun _ h => renumbers_leavesTables (.inl h)) (issues_notifyRung _ _)

theorem issues_cancelQueueEntry (input : CancelQueueEntryInput) :
    Issues (fun c => ¬ SeatingTransaction c) (cancelQueueEntry input) := by
  have hreads : ∀ c, Reads c → ¬ SeatingTransaction c := fun c => reads_not_seating
  refine issues_bind (issues_mono hreads (issues_findOwned _ _)) fun e =>
    issues_bind (issues_mono hreads (issues_cancel e _)) fun _ => issues_bind ?_ fun _ =>
      issues_bind (issues_call id) fun persisted => ?_
  · apply issues_bind (issues_call id)
    intro l
    split
    · exact issues_bind (issues_call id) fun _ => issues_call id
    · exact issues_pure _
  · exact issues_mono (fun c => leavesTables_not_seating)
      (issues_renumbering fun _ => issues_notifyCancelled _ _).2

end SpotQueue.TableCalls
