import SpotQueue.StoreChanges

namespace SpotQueue.RowChanges

open SpotQueue.Entity SpotQueue.Repository SpotQueue.Environment SpotQueue.UseCases
open SpotQueue.Line SpotQueue.Recalculation SpotQueue.Leaving SpotQueue.Registration
open SpotQueue.StoreChanges

variable {E : Env} {op : Operation} {D : Time → Prop} {s s' : Store} {e d : QueueEntry}

/-- Two rows of one ticket, equal in everything but its place, its estimate and its calls. -/
def SameTicket (e d : QueueEntry) : Prop :=
  d = { e with
    position := d.position
    estimatedWaitMinutes := d.estimatedWaitMinutes
    ringCount := d.ringCount
    lastRingedAt := d.lastRingedAt
    updatedAt := d.updatedAt }

/-- What one write may do to one row. -/
inductive RowChange (D : Time → Prop) (e : QueueEntry) : QueueEntry → Prop
  | kept : RowChange D e e
  | moved {d : QueueEntry} (hw : e.status = .waiting) (hd : SameTicket e d) : RowChange D e d
  | left {d : QueueEntry} (hw : e.status = .waiting) (hd : Leaves D e d) : RowChange D e d

theorem rowChange_of_eq (h : d = e) : RowChange D e d := h ▸ .kept

theorem rowChange_seated (h : RowChange D e d) (hs : e.status = .seated) : d = e := by
  cases h with
  | kept => rfl
  | moved hw _ => rw [hw] at hs; cases hs
  | left hw _ => rw [hw] at hs; cases hs

theorem touches_id (h : Touches e d) : d.id = e.id := by
  rw [h]

theorem leaves_id (h : Leaves D e d) : d.id = e.id := by
  cases h <;> rfl

theorem rowChange_id (h : RowChange D e d) : d.id = e.id := by
  cases h with
  | kept => rfl
  | moved _ hd => rw [hd]
  | left _ hd => exact leaves_id hd

theorem rowChange_restaurant (h : RowChange D e d) : d.restaurantId = e.restaurantId := by
  cases h with
  | kept => rfl
  | moved _ hd => rw [hd]
  | left _ hd => cases hd <;> rfl

/-- Every row is written over in place; those of other restaurants stay as they are. -/
def RowsChange (D : Time → Prop) (r : Uuid) (s s' : Store) : Prop :=
  ∃ f : QueueEntry → QueueEntry, s'.entries = s.entries.map f ∧
    ∀ e ∈ s.entries, RowChange D e (f e) ∧ (e.restaurantId ≠ r → f e = e)

theorem put_cases {c : QueueEntry} (he : e ∈ s.entries) (hid : d.id = e.id) (hc : c ∈ s.entries) :
    c = e ∧ (if c.id = d.id then d else c) = d ∨ (if c.id = d.id then d else c) = c := by
  by_cases h : c.id = d.id
  · exact .inl ⟨eq_of_id_eq s.key hc he (h.trans hid), if_pos h⟩
  · exact .inr (if_neg h)

theorem leaves_status (h : Leaves D e d) : d.status ≠ .waiting := by
  cases h with
  | seated => exact nofun
  | skipped => exact nofun
  | cancelled hs =>
    obtain rfl | rfl := hs
    · exact nofun
    · exact nofun

theorem put_rows (he : e ∈ s.entries) (hid : d.id = e.id) (hd : RowChange D e d)
    (hentries : s'.entries = (s.put d).entries) : RowsChange D e.restaurantId s s' := by
  refine ⟨_, hentries, fun c hc => ?_⟩
  obtain ⟨rfl, hput⟩ | hput := put_cases he hid hc
  · exact ⟨hput.symm ▸ hd, fun h => (h rfl).elim⟩
  · exact ⟨rowChange_of_eq hput, fun _ => hput⟩

theorem change_rows (h : Change E op D s s') : RowsChange D (.ofText op.restaurantId) s s' := by
  cases h with
  | touch hmem howned hw hd hentries _ =>
    refine howned ▸ put_rows hmem (touches_id hd) (.moved hw ?_) hentries
    rw [SameTicket, hd]
  | leave hmem howned hw hd hentries _ _ =>
    exact howned ▸ put_rows hmem (leaves_id hd) (.left hw hd) hentries
  | renumber hline hetas hentries _ =>
    refine ⟨_, hentries, fun c hc => ?_⟩
    obtain ⟨-, hkept⟩ | ⟨j, m, t, hj, -, hmoved⟩ := renumber_cases hline (etasOf_length hetas) hc
    · exact ⟨rowChange_of_eq hkept, fun _ => hkept⟩
    · have hmem := (isLine_mem hline).mp (List.mem_of_getElem? hj)
      refine ⟨.moved hmem.2.2 (by rw [hmoved]; rfl), fun h => (h hmem.2.1).elim⟩
  | reorder _ hline hi hentries _ =>
    refine ⟨_, hentries, fun c hc => ?_⟩
    obtain ⟨-, hkept⟩ | ⟨j, hj, hmoved⟩ := reorder_cases hline (shiftedLine_perm hi _) hc
    · exact ⟨rowChange_of_eq hkept, fun _ => hkept⟩
    · have hmem := (isLine_mem hline).mp ((shiftedLine_perm hi _).mem_iff.mp (List.mem_of_getElem? hj))
      refine ⟨.moved hmem.2.2 (by rw [hmoved]; rfl), fun h => (h hmem.2.1).elim⟩

/-- A column that no row change touches is the same after all changes of an operation. -/
theorem changes_column {β : Type} {g : QueueEntry → β} (hg : ∀ {e d}, RowChange D e d → g d = g e)
    (h : Changes E op D s s') : s'.entries.map g = s.entries.map g := by
  induction h with
  | refl => rfl
  | tail _ hlast ih =>
    obtain ⟨f, hf, hrow⟩ := change_rows hlast
    rw [← ih, hf, List.map_map]
    exact List.map_congr_left fun e he => hg (hrow e he).1

theorem changes_ids (h : Changes E op D s s') :
    s'.entries.map (·.id) = s.entries.map (·.id) := changes_column rowChange_id h

/-- Whoever holds a table has been seated, and no seat is ever given back. -/
def Held (s : Store) : Prop :=
  ∀ a ∈ s.assignments, a.releasedAt = none ∧
    ∃ e ∈ s.entries, e.id = a.queueEntryId ∧ e.status = .seated

theorem held_tableFree (h : Held s) : TableFree s := by
  intro e he hw
  rw [Store.activeAssignments, List.filter_eq_nil_iff]
  intro a ha hactive
  obtain ⟨-, d, hd, hid, hseated⟩ := h a ha
  have hae : a.queueEntryId = e.id := (of_decide_eq_true hactive).1
  obtain rfl := eq_of_id_eq s.key hd he (hid.trans hae)
  rw [hw] at hseated
  cases hseated

theorem held_rows {r : Uuid} (h : RowsChange D r s s') {id : Uuid}
    (hs : ∃ e ∈ s.entries, e.id = id ∧ e.status = .seated) :
    ∃ e ∈ s'.entries, e.id = id ∧ e.status = .seated := by
  obtain ⟨f, hf, hrow⟩ := h
  obtain ⟨e, he, hid, hseated⟩ := hs
  refine ⟨e, ?_, hid, hseated⟩
  rw [hf, List.mem_map]
  exact ⟨e, he, rowChange_seated (hrow e he).1 hseated⟩

theorem held_change (h : Change E op D s s') (hs : Held s) : Held s' := by
  have hkept : ∀ a ∈ s.assignments, a.releasedAt = none ∧
      ∃ e ∈ s'.entries, e.id = a.queueEntryId ∧ e.status = .seated :=
    fun a ha => ⟨(hs a ha).1, held_rows (change_rows h) (hs a ha).2⟩
  cases h with
  | touch _ _ _ _ _ hassignments => exact fun a ha => hkept a (hassignments ▸ ha)
  | renumber _ _ _ hassignments => exact fun a ha => hkept a (hassignments ▸ ha)
  | reorder _ _ _ _ hassignments => exact fun a ha => hkept a (hassignments ▸ ha)
  | @leave e d as hmem _ _ hd hentries hassignments has =>
    intro a ha
    rw [hassignments, List.mem_append] at ha
    obtain ha | ha := ha
    · exact hkept a ha
    · obtain ⟨hid, hfree, hseated⟩ := has a ha
      refine ⟨hfree, d, ?_, (leaves_id hd).trans hid.symm, hseated⟩
      rw [hentries, Store.put_entries, List.mem_map]
      exact ⟨e, hmem, if_pos (leaves_id hd).symm⟩

theorem held_changes (h : Changes E op D s s') (hs : Held s) : Held s' := by
  induction h with
  | refl => exact hs
  | tail _ hlast ih => exact held_change hlast ih

theorem held_joined {hfresh : e.id ∉ s.entries.map (·.id)} {changedBy : String} {now : Time}
    (hs : Held s) : Held (joinedStore s e hfresh changedBy now) := by
  intro a ha
  obtain ⟨hfree, d, hd, hid, hseated⟩ := hs a ha
  exact ⟨hfree, d, List.mem_append_left _ hd, hid, hseated⟩

end SpotQueue.RowChanges
