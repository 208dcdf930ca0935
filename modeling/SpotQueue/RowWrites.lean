import SpotQueue.StoreChanges
import SpotQueue.Awaits.AsyncPool

namespace SpotQueue.RowWrites

open SpotQueue.Entity SpotQueue.Repository SpotQueue.Environment SpotQueue.UseCases SpotQueue.Frame
open SpotQueue.Guards SpotQueue.Recalculation SpotQueue.Line SpotQueue.Awaits.AsyncPool

variable {E : Env} {w w' : World} {s s' : Store} {id : Uuid} {e d : QueueEntry} {c : Call}

/-- The row a call writes as a whole. -/
def rewritten : Call → Option QueueEntry
  | .createWithHistory e _ => some e
  | .assignTablesWithHistory e _ _ _ => some e
  | .updateStatusWithHistory params => some params.queueEntry
  | .save e => some e
  | _ => none

/-- The answered step writes the row of this ticket. -/
def Rewrites {ι : Type} (id : Uuid) (l : Step ι Call Answer QueueError) : Prop :=
  ∃ e ∈ rewritten l.call, e.id = id ∧ ∃ a, l.answer = .ok a

instance {ι : Type} (id : Uuid) (l : Step ι Call Answer QueueError) : Decidable (Rewrites id l) :=
  have : Decidable (∃ a, l.answer = .ok a) :=
    match l.answer with
    | .ok a => isTrue ⟨a, rfl⟩
    | .error _ => isFalse nofun
  inferInstanceAs (Decidable (∃ e ∈ rewritten l.call, e.id = id ∧ ∃ a, l.answer = .ok a))

theorem find_map {f : QueueEntry → QueueEntry} (hentries : s'.entries = s.entries.map f)
    (hf : ∀ e, (f e).id = e.id) (id : Uuid) : s'.find id = (s.find id).map f := by
  have hsame : (fun e : QueueEntry => decide (e.id = id)) ∘ f = fun e => decide (e.id = id) := by
    funext e
    rw [Function.comp_apply, hf]
  rw [Store.find, Store.find, hentries, List.find?_map, hsame]

/-- Writing a whole row settles the row of its ticket, createdAt apart, and no other. -/
structure Rewrite (e : QueueEntry) (s s' : Store) : Prop where
  row : ∃ createdAt, s'.find e.id = some { e with createdAt := createdAt }
  others : ∀ id ≠ e.id, s'.find id = s.find id

theorem rewrite_map {f : QueueEntry → QueueEntry} (hentries : s'.entries = s.entries.map f)
    (hstored : e.id ∈ s.entries.map (·.id))
    (hrow : ∀ c, c.id = e.id → ∃ createdAt, f c = { e with createdAt := createdAt })
    (hother : ∀ c, c.id ≠ e.id → f c = c) : Rewrite e s s' := by
  have hids : ∀ c, (f c).id = c.id := by
    intro c
    by_cases hc : c.id = e.id
    · obtain ⟨createdAt, hfc⟩ := hrow c hc
      rw [hfc, hc]
    · rw [hother c hc]
  obtain ⟨d, hd, hid⟩ := List.mem_map.mp hstored
  constructor
  · obtain ⟨createdAt, hfd⟩ := hrow d hid
    refine ⟨createdAt, find_eq_some.mpr ⟨?_, rfl⟩⟩
    rw [hentries, ← hfd]
    exact List.mem_map_of_mem hd
  · intro id hne
    rw [find_map hentries hids]
    cases hfind : s.find id with
    | none => rfl
    | some c => rw [Option.map_some, hother c ((find_eq_some.mp hfind).2 ▸ hne)]

theorem rewrite_put (hstored : e.id ∈ s.entries.map (·.id))
    (hentries : s'.entries = (s.put e).entries) : Rewrite e s s' :=
  rewrite_map hentries hstored (fun _ hc => ⟨e.createdAt, if_pos hc⟩) fun _ hc => if_neg hc

theorem rewrite_insert (hentries : s'.entries = s.entries ++ [e]) : Rewrite e s s' := by
  constructor
  · exact ⟨e.createdAt, find_eq_some.mpr ⟨hentries ▸ by simp, rfl⟩⟩
  · intro id hne
    simp [Store.find, hentries, hne.symm]

theorem rewrite_save : Rewrite e s (s.save e) := by
  rw [Store.save]
  split
  · rename_i hstored
    exact rewrite_map rfl hstored (fun c hc => ⟨c.createdAt, if_pos hc⟩) fun _ hc => if_neg hc
  · exact rewrite_insert rfl

theorem reads_rewritten (hc : Reads c) : rewritten c = none := by
  cases c <;> first | exact hc.elim | rfl

theorem quiet_rewritten (hc : Quiet c) : rewritten c = none := by
  obtain hc | hc := hc
  · exact reads_rewritten hc
  · cases c <;> first | exact hc.elim | rfl

theorem renumbers_rewritten (hc : Renumbers c) : rewritten c = none := by
  obtain hc | ⟨us, rfl⟩ := hc
  · exact quiet_rewritten hc
  · rfl

/-- A row written by one of the three transactions is told of in the history. -/
def Told (e : QueueEntry) (s s' : Store) : Prop :=
  ∃ h : StatusHistory, h.queueEntryId = e.id ∧ h.currentStatus = e.status ∧
    s'.history = s.history ++ [h]

theorem rewritten_answers {a : Answer c} (hc : rewritten c = some e)
    (h : E.Answers c w (.ok a) w') : Rewrite e w.store w'.store ∧
      (Told e w.store w'.store ∨ c = .save e ∧ w'.store.history = w.store.history) := by
  obtain ⟨t, -, hp⟩ := answers_ok h
  cases c with
  | createWithHistory d changedBy =>
    cases hc
    obtain ⟨-, s, hs, rfl⟩ := transacts_ok hp
    obtain ⟨-, -, -, rfl⟩ := Store.createWithHistory_ok.mp hs
    exact ⟨rewrite_insert rfl, .inl ⟨_, rfl, rfl, rfl⟩⟩
  | assignTablesWithHistory d tableIds assignedBy previousStatus =>
    cases hc
    obtain ⟨-, s, hs, rfl⟩ := transacts_ok hp
    obtain ⟨hstored, rfl⟩ := Store.assignTablesWithHistory_ok.mp hs
    exact ⟨rewrite_put hstored rfl, .inl ⟨_, rfl, rfl, rfl⟩⟩
  | updateStatusWithHistory params =>
    cases hc
    obtain ⟨-, s, hs, rfl⟩ := transacts_ok hp
    obtain ⟨hstored, rfl⟩ := Store.updateStatusWithHistory_ok.mp hs
    exact ⟨rewrite_put hstored rfl, .inl ⟨_, rfl, rfl, rfl⟩⟩
  | save d =>
    cases hc
    obtain ⟨-, rfl⟩ := hp
    exact ⟨rewrite_save, .inr ⟨rfl, Store.save_history _ _⟩⟩
  | _ => cases hc

/-- What a batch of positions may write of a row. -/
def Renumbered (e d : QueueEntry) : Prop :=
  d = { e with
    position := d.position
    estimatedWaitMinutes := d.estimatedWaitMinutes
    updatedAt := d.updatedAt }

theorem renumbered_trans {f : QueueEntry} (h₁ : Renumbered e d) (h₂ : Renumbered d f) :
    Renumbered e f :=
  h₂.trans (by rw [h₁])

theorem applyUpdate_renumbered (t : Time) (e : QueueEntry) (u : PositionUpdate) :
    Renumbered e (applyUpdate t e u) := by
  rw [applyUpdate]
  split <;> rfl

theorem foldl_applyUpdate_renumbered (t : Time) (us : List PositionUpdate) (e : QueueEntry) :
    Renumbered e (us.foldl (applyUpdate t) e) := by
  induction us generalizing e with
  | nil => rfl
  | cons u us ih => exact renumbered_trans (applyUpdate_renumbered t e u) (ih _)

theorem foldl_applyUpdate_status (t : Time) (us : List PositionUpdate) (e : QueueEntry) :
    (us.foldl (applyUpdate t) e).status = e.status := by
  rw [foldl_applyUpdate_renumbered t us e]

/-- No row is written but by a batch of positions, and the history stays as it is. -/
structure Kept (s s' : Store) : Prop where
  rows : ∃ f : QueueEntry → QueueEntry, s'.entries = s.entries.map f ∧ ∀ e, Renumbered e (f e)
  history : s'.history = s.history

theorem kept_of_eq (h : s' = s) : Kept s s' := h ▸ ⟨⟨id, (List.map_id _).symm, fun _ => rfl⟩, rfl⟩

theorem kept_answers {x : Except QueueError (Answer c)} (hc : rewritten c = none)
    (h : E.Answers c w x w') : Kept w.store w'.store := by
  obtain err | a := x
  · exact kept_of_eq (rejected_still h).store
  by_cases hquiet : Quiet c
  · exact kept_of_eq (answers_calm hquiet h).store
  obtain ⟨t, -, hp⟩ := answers_ok h
  cases c with
  | assignTables | releaseTables => exact kept_of_eq (hp.2 ▸ rfl)
  | releaseTableAssignments queueEntryId =>
    obtain ⟨-, rfl⟩ := hp
    exact ⟨⟨id, (List.map_id _).symm, fun _ => rfl⟩, rfl⟩
  | batchUpdatePositions us =>
    obtain ⟨-, s, hs, rfl⟩ := transacts_ok hp
    obtain ⟨-, rfl⟩ := Store.batchUpdatePositions_ok.mp hs
    exact ⟨⟨_, rfl, foldl_applyUpdate_renumbered _ us⟩, rfl⟩
  | createWithHistory | assignTablesWithHistory | updateStatusWithHistory | save => cases hc
  | redisSet | redisDel | broadcastToRestaurant | sendToTicket => exact (hquiet (.inr trivial)).elim
  | _ => exact (hquiet (.inl trivial)).elim

/-- A column no batch writes is read as before wherever no row is written as a whole. -/
theorem Kept.column {β : Type} {g : QueueEntry → β} (hg : ∀ e d, Renumbered e d → g d = g e)
    (h : Kept s s') (id : Uuid) : (s'.find id).map g = (s.find id).map g := by
  obtain ⟨⟨f, hentries, hf⟩, -⟩ := h
  have hids : ∀ e, (f e).id = e.id := fun e => by rw [hf e]
  have hcolumn : ∀ e, g (f e) = g e := fun e => hg e (f e) (hf e)
  rw [find_map hentries hids]
  simp [Function.comp_def, hcolumn]

end SpotQueue.RowWrites
