import SpotQueue.Seating
import Mathlib.Data.List.Perm.Basic

namespace SpotQueue.Leaving

open SpotQueue.Entity SpotQueue.Repository SpotQueue.Environment SpotQueue.Recalculator
open SpotQueue.UseCases SpotQueue.Frame SpotQueue.Guards SpotQueue.Line SpotQueue.Recalculation
open SpotQueue.Seating SpotQueue.Awaits.AsyncProgram SpotQueue.Awaits.AsyncProtocol

variable {E : Env} {w u w' : World}

/-- The store after updateStatusWithHistory of a row that exists. -/
def statusStore (s : Store) (params : UpdateStatusWithHistoryParams) (now : Time) : Store :=
  (s.put params.queueEntry).log ⟨params.queueEntry.id, some params.previousStatus,
    params.queueEntry.status, some params.changedBy, params.reason, params.notes, now⟩

theorem updateStatusWithHistory_answers {params : UpdateStatusWithHistoryParams} {d : QueueEntry}
    (h : E.Answers (.updateStatusWithHistory params) w (.ok d) u) :
    d = params.queueEntry ∧ Committed E w (statusStore w.store params u.clock) u := by
  obtain ⟨t, ht, hp⟩ := answers_ok h
  obtain ⟨rfl, s, hs, rfl⟩ := transacts_ok hp
  obtain ⟨-, rfl⟩ := Store.updateStatusWithHistory_ok.mp hs
  exact ⟨rfl, (still_at ht).committed _⟩

@[simp] theorem statusStore_entries (s : Store) (params : UpdateStatusWithHistoryParams)
    (now : Time) : (statusStore s params now).entries = (s.put params.queueEntry).entries := rfl

@[simp] theorem statusStore_assignments (s : Store) (params : UpdateStatusWithHistoryParams)
    (now : Time) : (statusStore s params now).assignments = s.assignments := rfl

/-- The batch the reorder branch writes for a line it moves row `i` down in. -/
def shiftedLine (l : List QueueEntry) (i skipPositions : Nat) : List QueueEntry :=
  splice l i (targetIndex l i skipPositions)

def shiftedStore (s : Store) (l : List QueueEntry) (i skipPositions : Nat) (now : Time) : Store :=
  s.updatePositions (reorderUpdates (shiftedLine l i skipPositions)) now

inductive SkipOutcome (E : Env) (input : SkipPartyInput) (w : World) :
    Except QueueError SkipPartyOutput → World → Prop
  | refused {e : QueueError} {w' : World} (hstill : Still E w w') : SkipOutcome E input w (.error e) w'
  | shifted {found : QueueEntry} {l : List QueueEntry} {i k : Nat} {e : QueueError} {u w' : World}
      (hfound : Found w input.restaurantId input.queueEntryId found)
      (hk : input.skipPositions = some (k + 1))
      (hline : IsLine w.store (.ofText input.restaurantId) l) (hi : l[i]? = some found)
      (hu : Committed E w (shiftedStore w.store l i (k + 1) u.clock) u)
      (hfails : EssentialFails E) (hstill : Still E u w') : SkipOutcome E input w (.error e) w'
  | reordered {found : QueueEntry} {l : List QueueEntry} {i k : Nat} {a : Time}
      {x : Except QueueError SkipPartyOutput} {u v w' : World}
      (hfound : Found w input.restaurantId input.queueEntryId found)
      (hk : input.skipPositions = some (k + 1))
      (hline : IsLine w.store (.ofText input.restaurantId) l) (hi : l[i]? = some found)
      (hu : Committed E w (shiftedStore w.store l i (k + 1) u.clock) u)
      (hv : Committed E u (statusStore u.store
        ⟨found.moved (targetIndex l i (k + 1) + 1) a, found.status, input.staffUserId,
          some (shiftedReason input.reason (k + 1)), none⟩ v.clock) v)
      (hrest : Executes E.Answers (do
        let _ ← recalculate input.restaurantId
        notifySkipped input (found.moved (targetIndex l i (k + 1) + 1) a)
          (shiftedReason input.reason (k + 1)) (some (targetIndex l i (k + 1) + 1))) v x w') :
      SkipOutcome E input w x w'
  | skipped {found : QueueEntry} {a : Time} {x : Except QueueError SkipPartyOutput} {v w' : World}
      (hfound : Found w input.restaurantId input.queueEntryId found) (ha : During E w v a)
      (hv : Committed E w (statusStore w.store ⟨found.skipped a, found.status, input.staffUserId,
        some input.reason, none⟩ v.clock) v)
      (hrest : Executes E.Answers (do
        let _ ← closeRanks input.queueEntryId input.restaurantId
        notifySkipped input (found.skipped a) input.reason none) v x w') :
      SkipOutcome E input w x w'

theorem skipOut_executes {input : SkipPartyInput} {found : QueueEntry}
    {x : Except QueueError SkipPartyOutput}
    (hfound : Found w input.restaurantId input.queueEntryId found) (hwu : Still E w u)
    (h : Executes E.Answers (skipOut input found) u x w') : SkipOutcome E input w x w' := by
  obtain ⟨e, v, hskip, huv, h⟩ | ⟨⟨err, rfl⟩, hstill⟩ := reads_bind (issues_skip found) h
  swap
  · exact .refused (still_trans hwu hstill)
  obtain ⟨-, -, a, ha, rfl⟩ := skip_executes hskip
  have hwv := still_trans hwu huv
  obtain ⟨_, z, hcommit, h⟩ | ⟨err, rfl, hcommit⟩ := executes_call_bind h
  · obtain ⟨rfl, hz⟩ := updateStatusWithHistory_answers hcommit
    rw [hwv.store] at hz
    exact .skipped hfound (during_widen hwu.later ha (answers_later hcommit))
      (committed_of_still hwv hz) h
  · exact .refused (still_trans hwv (rejected_still hcommit))

theorem splice_perm {l : List QueueEntry} {i target : Nat} (ht : target < l.length) :
    (splice l i target).Perm l := by
  rw [splice]
  split
  · rename_i e he
    obtain ⟨hi, rfl⟩ := List.getElem?_eq_some_iff.mp he
    have hlen : target ≤ (l.eraseIdx i).length := by
      rw [List.length_eraseIdx_of_lt hi]
      omega
    apply (List.perm_insertIdx _ _ hlen).trans
    exact List.getElem_cons_eraseIdx_perm hi
  · rfl

theorem splice_getElem? {l : List QueueEntry} {i target : Nat} (ht : target < l.length) :
    (splice l i target)[target]? = if i < l.length then l[i]? else l[target]? := by
  rw [splice]
  split
  · rename_i e he
    obtain ⟨hi, rfl⟩ := List.getElem?_eq_some_iff.mp he
    have hlen : target ≤ (l.eraseIdx i).length := by
      rw [List.length_eraseIdx_of_lt hi]
      omega
    rw [if_pos hi, List.getElem?_insertIdx_self, if_pos hlen, he]
  · rename_i hnone
    rw [if_neg (by simpa using hnone)]

theorem targetIndex_lt {l : List QueueEntry} {i : Nat} (hi : i < l.length) (k : Nat) :
    targetIndex l i k < l.length := by
  rw [targetIndex]
  omega

theorem shiftedLine_perm {l : List QueueEntry} {i : Nat} {e : QueueEntry} (hi : l[i]? = some e)
    (k : Nat) : (shiftedLine l i k).Perm l :=
  splice_perm (targetIndex_lt (List.getElem?_eq_some_iff.mp hi).1 k)

theorem shiftedLine_target {l : List QueueEntry} {i : Nat} {e : QueueEntry} (hi : l[i]? = some e)
    (k : Nat) : (shiftedLine l i k)[targetIndex l i k]? = some e := by
  have hlt := (List.getElem?_eq_some_iff.mp hi).1
  rw [shiftedLine, splice_getElem? (targetIndex_lt hlt k), if_pos hlt, hi]

/-- How moving row `i` of a given line `k` places down can end. -/
inductive ReorderOutcome (E : Env) (input : SkipPartyInput) (found : QueueEntry) (k : Nat)
    (l : List QueueEntry) (i : Nat) (w : World) : Except QueueError SkipPartyOutput → World → Prop
  | refused {e : QueueError} {w' : World} (hfails : EssentialFails E) (hstill : Still E w w') :
      ReorderOutcome E input found k l i w (.error e) w'
  | shifted {e : QueueError} {u w' : World} (hu : Committed E w (shiftedStore w.store l i k u.clock) u)
      (hfails : EssentialFails E) (hstill : Still E u w') :
      ReorderOutcome E input found k l i w (.error e) w'
  | reordered {a : Time} {x : Except QueueError SkipPartyOutput} {u v w' : World}
      (hu : Committed E w (shiftedStore w.store l i k u.clock) u)
      (hv : Committed E u (statusStore u.store
        ⟨found.moved (targetIndex l i k + 1) a, found.status, input.staffUserId,
          some (shiftedReason input.reason k), none⟩ v.clock) v)
      (hrest : Executes E.Answers (do
        let _ ← recalculate input.restaurantId
        notifySkipped input (found.moved (targetIndex l i k + 1) a)
          (shiftedReason input.reason k) (some (targetIndex l i k + 1))) v x w') :
      ReorderOutcome E input found k l i w x w'

theorem reorder_executes {input : SkipPartyInput} {found : QueueEntry} {l : List QueueEntry}
    {i k : Nat} {x : Except QueueError SkipPartyOutput} (hwaiting : found.status = .waiting)
    (hwu : Still E w u) (hline : IsLine w.store (.ofText input.restaurantId) l)
    (hi : l[i]? = some found) (h : Executes E.Answers (reorder input found k l i) u x w') :
    ReorderOutcome E input found k l i w x w' := by
  have hmem := ((isLine_mem hline).mp (List.mem_of_getElem? hi)).1
  have hstored : ∀ c ∈ reorderUpdates (shiftedLine l i k), c.id ∈ w.store.entries.map (·.id) := by
    intro c hc
    obtain ⟨j, e, hj, rfl⟩ := mem_reorderUpdates.mp hc
    have hel := (shiftedLine_perm hi k).mem_iff.mp (List.mem_of_getElem? hj)
    exact List.mem_map_of_mem ((isLine_mem hline).mp hel).1
  obtain ⟨_, v, hmove, h⟩ | ⟨err, rfl, hmove⟩ := executes_bind h
  swap
  · obtain ⟨-, a, ha⟩ := updatePosition_executes hwaiting hmove
    cases ha
  obtain ⟨huv, a, ha⟩ := updatePosition_executes hwaiting hmove
  cases ha
  have hwv := still_trans hwu huv
  have hus : reorderUpdates (shiftedLine l i k) ≠ [] := by
    have hlen : (reorderUpdates (shiftedLine l i k)).length = l.length := by
      rw [reorderUpdates, List.length_mapIdx, (shiftedLine_perm hi k).length_eq]
    intro hnil
    rw [hnil, List.length_nil] at hlen
    have hlt := (List.getElem?_eq_some_iff.mp hi).1
    omega
  obtain ⟨_, z, hbatch, h⟩ | ⟨err, rfl, hbatch⟩ := executes_bind h
  swap
  · obtain ⟨d, -, hstill, hfails⟩ | ⟨y, hy, -⟩ := batchUpdatePositions_executes hus hbatch
    · exact .refused (hfails (hwv.store ▸ hstored)) (still_trans hwv hstill)
    · cases hy
  obtain ⟨d, hd, -, -⟩ | ⟨y, -, hy, rfl⟩ := batchUpdatePositions_executes hus hbatch
  · cases hd
  have hz : Committed E w (shiftedStore w.store l i k y.clock)
      (y.commit (v.store.updatePositions (reorderUpdates (shiftedLine l i k)) y.clock)) := by
    rw [hwv.store]
    exact (still_trans hwv hy).committed _
  obtain ⟨_, v', hcommit, h⟩ | ⟨err, rfl, hcommit⟩ := executes_call_bind h
  · obtain ⟨rfl, hv'⟩ := updateStatusWithHistory_answers hcommit
    exact .reordered hz hv' h
  · refine .shifted hz ⟨.updateStatusWithHistory _, trivial,
      fails_of_error hcommit fun t hp => ?_⟩ (rejected_still hcommit)
    have hmem : found.id ∈ v.store.entries.map (·.id) := hwv.store ▸ List.mem_map_of_mem hmem
    apply (Store.updateStatusWithHistory_error.mp (transacts_error hp).1).1
    change found.id ∈ (shiftedStore v.store l i k y.clock).entries.map (·.id)
    rwa [shiftedStore, updatePositions_ids]

theorem skipParty_executes {input : SkipPartyInput} {x : Except QueueError SkipPartyOutput}
    (hskip : Executes E.Answers (skipParty input) w x w') : SkipOutcome E input w x w' := by
  obtain ⟨found, u, hlookup, hwu, hguarded⟩ | ⟨⟨err, rfl⟩, hstill⟩ :=
    reads_bind (issues_findOwned _ _) hskip
  swap
  · exact .refused hstill
  obtain ⟨-, hfind, howned⟩ := findOwned_executes hlookup
  obtain ⟨_, v, hguard, huv, h⟩ | ⟨⟨err, rfl⟩, hstill⟩ :=
    reads_bind (issues_requireWaiting found) hguarded
  swap
  · exact .refused (still_trans hwu hstill)
  obtain ⟨rfl, hwaiting⟩ := requireWaiting_executes hguard
  have hfound : Found w input.restaurantId input.queueEntryId found :=
    ⟨hfind, howned, hwaiting rfl⟩
  split at h
  · rename_i k hk
    obtain ⟨l, y, hl, h⟩ | ⟨err, rfl, hl⟩ := executes_call_bind h
    swap
    · exact .refused (still_trans hwu (rejected_still hl))
    have hwy := still_trans hwu (answers_still (c := .findActiveEntries _) trivial hl)
    obtain ⟨t, -, ⟨l', hline, hl'⟩, -⟩ := answers_ok hl
    cases hl'
    change IsLine v.store (.ofText input.restaurantId) l at hline
    rw [hwu.store] at hline
    split at h
    · rename_i i hindex
      obtain ⟨hlt, hq, -⟩ := List.findIdx?_eq_some_iff_getElem.mp hindex
      have hrow : l[i] = found := by
        have hmem := ((isLine_mem hline).mp (List.getElem_mem hlt)).1
        apply eq_of_id_eq w.store.key hmem hfound.mem
        rw [hfound.id, ← of_decide_eq_true hq, Uuid.ofText_text]
      have hi := List.getElem?_eq_some_iff.mpr ⟨hlt, hrow⟩
      cases reorder_executes hfound.waiting hwy hline hi h with
      | refused _ hstill => exact .refused hstill
      | shifted hu hfails hstill => exact .shifted hfound hk hline hi hu hfails hstill
      | reordered hu hv hrest => exact .reordered hfound hk hline hi hu hv hrest
    · exact skipOut_executes hfound hwy h
  · exact skipOut_executes hfound hwu h

inductive CancelOutcome (E : Env) (input : CancelQueueEntryInput) (w : World) :
    Except QueueError CancelQueueEntryOutput → World → Prop
  | refused {e : QueueError} {w' : World} (hstill : Still E w w') :
      CancelOutcome E input w (.error e) w'
  | cancelled {found : QueueEntry} {a b : Time} {x : Except QueueError CancelQueueEntryOutput}
      {v w' : World} (hfound : Found w input.restaurantId input.queueEntryId found)
      (hb : During E w v b)
      (hv : Committed E w (statusStore w.store
        ⟨found.cancelled (targetStatus input.reason) a b, found.status, input.staffUserId,
          some input.reason, input.notes⟩ v.clock) v)
      (hrest : Executes E.Answers (do
        let _ ← closeRanks input.queueEntryId input.restaurantId
        notifyCancelled input (found.cancelled (targetStatus input.reason) a b)) v x w') :
      CancelOutcome E input w x w'

theorem nothing_assigned {q : String} {l : List TableAssignment}
    (hfree : w.store.activeAssignments (.ofText q) = [])
    (h : E.Answers (.findActiveTableAssignments q) w (.ok l) u) : l = [] := by
  obtain ⟨t, -, ⟨l', hperm, hl'⟩, -⟩ := answers_ok h
  cases hl'
  change l.Perm (w.store.activeAssignments _) at hperm
  rwa [hfree, List.perm_nil] at hperm

/-- With no table held there is nothing to give back. -/
theorem releaseAssigned_executes {input : CancelQueueEntryInput} {n : Nat}
    {x : Except QueueError Unit} (hfree : w.store.activeAssignments (.ofText input.queueEntryId) = [])
    (h : Executes E.Answers (releaseAssigned input n) w x w') : Still E w w' := by
  obtain ⟨l, u, hl, h⟩ | ⟨err, rfl, hl⟩ := executes_call_bind h
  swap
  · exact rejected_still hl
  have hu := answers_still (c := .findActiveTableAssignments _) trivial hl
  obtain rfl := nothing_assigned hfree hl
  obtain ⟨-, rfl⟩ := executes_pure.mp h
  exact hu

/-- No waiting party holds a table. -/
def TableFree (s : Store) : Prop :=
  ∀ e ∈ s.entries, e.status = .waiting → s.activeAssignments e.id = []

theorem cancelQueueEntry_executes {input : CancelQueueEntryInput}
    {x : Except QueueError CancelQueueEntryOutput} (hfree : TableFree w.store)
    (hcancel : Executes E.Answers (cancelQueueEntry input) w x w') : CancelOutcome E input w x w' := by
  obtain ⟨found, u, hlookup, hwu, hguarded⟩ | ⟨⟨err, rfl⟩, hstill⟩ :=
    reads_bind (issues_findOwned _ _) hcancel
  swap
  · exact .refused hstill
  obtain ⟨-, hfind, howned⟩ := findOwned_executes hlookup
  obtain ⟨e, v, hguard, huv, hreleased⟩ | ⟨⟨err, rfl⟩, hstill⟩ :=
    reads_bind (issues_cancel found _) hguarded
  swap
  · exact .refused (still_trans hwu hstill)
  obtain ⟨-, hwaiting, a, b, ha, hb, rfl⟩ := cancel_executes hguard
  have hfound : Found w input.restaurantId input.queueEntryId found := ⟨hfind, howned, hwaiting⟩
  have hwv := still_trans hwu huv
  have hnone : v.store.activeAssignments (.ofText input.queueEntryId) = [] := by
    rw [hwv.store, ← hfound.id]
    exact hfree found hfound.mem hwaiting
  obtain ⟨_, z, hrelease, h⟩ | ⟨err, rfl, hrelease⟩ := executes_bind hreleased
  swap
  · exact .refused (still_trans hwv (releaseAssigned_executes hnone hrelease))
  have hvz := releaseAssigned_executes hnone hrelease
  have hwz := still_trans hwv hvz
  obtain ⟨_, y, hcommit, h⟩ | ⟨err, rfl, hcommit⟩ := executes_call_bind h
  · obtain ⟨rfl, hy⟩ := updateStatusWithHistory_answers hcommit
    rw [hwz.store] at hy
    exact .cancelled hfound (during_widen hwu.later hb (hvz.later.trans (answers_later hcommit)))
      (committed_of_still hwz hy) h
  · exact .refused (still_trans hwz (rejected_still hcommit))

inductive RingOutcome (E : Env) (input : RingCustomerInput) (w : World) :
    Except QueueError RingCustomerOutput → World → Prop
  | refused {e : QueueError} {w' : World} (hstill : Still E w w') : RingOutcome E input w (.error e) w'
  | rung {found : QueueEntry} {a b : Time} {x : Except QueueError RingCustomerOutput} {v w' : World}
      (hfound : Found w input.restaurantId input.queueEntryId found)
      (hv : Committed E w (w.store.put (found.rung a b)) v)
      (hrest : Executes E.Answers (notifyRung (found.rung a b)
        (deepLink input.ticketDeepLinkBaseUrl found.id)) v x w') : RingOutcome E input w x w'

/-- Saving a stored row is putting it back: it kept the createdAt it was read with. -/
theorem save_eq_put {s : Store} {found e : QueueEntry} (hmem : found ∈ s.entries)
    (hid : e.id = found.id) (hcreated : e.createdAt = found.createdAt) : s.save e = s.put e := by
  have hin : e.id ∈ s.entries.map (·.id) := hid ▸ List.mem_map_of_mem hmem
  unfold Store.save Store.put
  rw [dif_pos hin]
  rw [Store.mapEntries]
  congr 1
  apply List.map_congr_left
  intro r hr
  split
  · rename_i hre
    rw [eq_of_id_eq s.key hr hmem (hre.trans hid), ← hcreated]
  · rfl

theorem ringCustomer_executes {input : RingCustomerInput} {x : Except QueueError RingCustomerOutput}
    (hring : Executes E.Answers (ringCustomer input) w x w') : RingOutcome E input w x w' := by
  obtain ⟨found, u, hlookup, hwu, hguarded⟩ | ⟨⟨err, rfl⟩, hstill⟩ :=
    reads_bind (issues_findOwned _ _) hring
  swap
  · exact .refused hstill
  obtain ⟨-, hfind, howned⟩ := findOwned_executes hlookup
  obtain ⟨e, v, hguard, huv, h⟩ | ⟨⟨err, rfl⟩, hstill⟩ := reads_bind (issues_ring found) hguarded
  swap
  · exact .refused (still_trans hwu hstill)
  obtain ⟨-, hwaiting, a, b, rfl⟩ := ring_executes hguard
  have hfound : Found w input.restaurantId input.queueEntryId found := ⟨hfind, howned, hwaiting⟩
  have hwv := still_trans hwu huv
  obtain ⟨_, z, hsave, h⟩ | ⟨err, rfl, hsave⟩ := executes_call_bind h
  · obtain ⟨t, ht, -, rfl⟩ := answers_ok hsave
    refine .rung hfound ?_ h
    have hmem : found ∈ v.store.entries := hwv.store ▸ hfound.mem
    change Committed E w _ ((v.at t).commit (v.store.save (found.rung a b)))
    have hsaved : v.store.save (found.rung a b) = v.store.put (found.rung a b) :=
      save_eq_put hmem rfl rfl
    rw [hsaved, hwv.store]
    exact (still_trans hwv (still_at ht)).committed _
  · exact .refused (still_trans hwv (rejected_still hsave))

end SpotQueue.Leaving
