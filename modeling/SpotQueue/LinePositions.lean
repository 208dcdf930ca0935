import SpotQueue.RowWrites
import Mathlib.Logic.Function.Basic

namespace SpotQueue.LinePositions

open SpotQueue.Entity SpotQueue.Repository SpotQueue.Environment SpotQueue.Recalculator
open SpotQueue.UseCases SpotQueue.Frame SpotQueue.Guards SpotQueue.Line SpotQueue.Recalculation
open SpotQueue.Registration SpotQueue.RowWrites

variable {E : Env} {w w' : World} {s s' : Store} {r id : Uuid} {l : List QueueEntry} {e d : QueueEntry}
  {us : List PositionUpdate} {t : Time} {c : Call}

def positions (r : Uuid) (s : Store) : List (Option Nat) := (s.waiting r).map (·.position)

def oneTo (n : Nat) : List (Option Nat) := (List.range n).map fun j => some (j + 1)

/-- The positions of the parties waiting are those from one to their number. -/
def InLine (r : Uuid) (s : Store) : Prop := (positions r s).Perm (oneTo (s.waiting r).length)

/-- Nobody else of the restaurant has a position. -/
def Cleared (r : Uuid) (s : Store) : Prop :=
  ∀ e ∈ s.entries, e.restaurantId = r → e.status ≠ .waiting → e.position = none

structure Orderly (r : Uuid) (s : Store) : Prop where
  line : InLine r s
  others : Cleared r s

/-- What a batch is about: which row, and where it stands. -/
def place (e : QueueEntry) : Uuid × Option Nat := (e.id, e.position)

/-- The line as it was read is the line as it is stored. -/
def Unmoved (r : Uuid) (l : List QueueEntry) (s : Store) : Prop :=
  (l.map place).Perm ((s.waiting r).map place)

theorem numbered_positions (h : Numbered l) : l.map (·.position) = oneTo l.length := by
  apply List.ext_getElem (by simp [oneTo])
  intro j hj _
  have hlt : j < l.length := by simpa using hj
  simpa [oneTo] using h j l[j] (List.getElem?_eq_getElem hlt)

theorem inLine_of_numbered (hline : l.Perm (s.waiting r)) (h : Numbered l) : InLine r s := by
  have hpositions := hline.map (·.position)
  rw [numbered_positions h, hline.length_eq] at hpositions
  exact hpositions.symm

/-- In the order it is read, a line that holds its positions holds them in turn. -/
theorem numbered_of_inLine (hline : IsLine s r l) (h : InLine r s) : Numbered l := by
  have hperm : (l.map (·.position)).Perm (oneTo l.length) := by
    rw [hline.perm.length_eq]
    exact (hline.perm.map _).trans h
  have hsorted : (l.map (·.position)).Pairwise fun a b => ∀ p ∈ a, ∀ q ∈ b, p ≤ q := by
    rw [List.pairwise_map]
    refine hline.sorted.imp fun {a b} hab p hp q hq => ?_
    simp only [Option.mem_def] at hp hq
    simp only [LineLE, hp, hq] at hab
    omega
  have hones : (oneTo l.length).Pairwise fun a b => ∀ p ∈ a, ∀ q ∈ b, p ≤ q := by
    rw [oneTo, List.pairwise_map]
    refine List.pairwise_lt_range.imp fun {i j} hij p hp q hq => ?_
    cases hp
    cases hq
    omega
  have hsame : l.map (·.position) = oneTo l.length := by
    refine List.Perm.eq_of_pairwise (fun a b ha hb hab hba => ?_) hsorted hones hperm
    obtain ⟨i, -, rfl⟩ := List.mem_map.mp (hperm.mem_iff.mp ha)
    obtain ⟨j, -, rfl⟩ := List.mem_map.mp hb
    exact congrArg some (Nat.le_antisymm (hab _ rfl _ rfl) (hba _ rfl _ rfl))
  intro j e hj
  have hj' : (l.map (·.position))[j]? = some e.position := by rw [List.getElem?_map, hj]; rfl
  have hlt : j < l.length := (List.getElem?_eq_some_iff.mp hj).1
  rw [hsame, oneTo, List.getElem?_map, List.getElem?_range hlt] at hj'
  exact (Option.some.inj hj').symm

theorem inLine_joined (hentries : s'.entries = s.entries ++ [e]) (hr : e.restaurantId = r)
    (hw : e.status = .waiting) (hposition : e.position = some ((s.waiting r).length + 1))
    (h : InLine r s) : InLine r s' := by
  have hwaiting : s'.waiting r = s.waiting r ++ [e] := by simp [Store.waiting, hentries, hr, hw]
  rw [InLine, positions, hwaiting, List.map_append, List.length_append, oneTo, List.length_singleton,
    List.range_succ, List.map_append]
  simp only [List.map_cons, List.map_nil, hposition]
  exact List.Perm.append_right _ h

theorem cleared_joined (hentries : s'.entries = s.entries ++ [e]) (hw : e.status = .waiting)
    (h : Cleared r s) : Cleared r s' := by
  intro d hd hr hstatus
  rw [hentries, List.mem_append, List.mem_singleton] at hd
  obtain hd | rfl := hd
  · exact h d hd hr hstatus
  · exact (hstatus hw).elim

theorem unmoved_mem (hl : Unmoved r l s) (hd : d ∈ l) : ∃ e ∈ s.waiting r, e.id = d.id := by
  obtain ⟨e, he, hplace⟩ := List.mem_map.mp (hl.mem_iff.mp (List.mem_map_of_mem hd))
  exact ⟨e, he, congrArg Prod.fst hplace⟩

theorem unmoved_nodup (hl : Unmoved r l s) : (l.map (·.id)).Nodup := by
  have hids : (l.map (·.id)).Perm ((s.waiting r).map (·.id)) := by
    have h := hl.map Prod.fst
    rwa [List.map_map, List.map_map] at h
  exact hids.nodup_iff.mpr (waiting_nodup s r)

/-- A batch about waiting rows gives nobody else a position. -/
theorem cleared_batch (hl : Unmoved r l s) (hids : ∀ u ∈ us, u.id ∈ l.map (·.id))
    (h : Cleared r s) : Cleared r (s.updatePositions us t) := by
  intro d hd hr hstatus
  rw [Store.updatePositions_entries] at hd
  obtain ⟨e, he, rfl⟩ := List.mem_map.mp hd
  have hsame := foldl_applyUpdate_renumbered t us e
  rw [hsame] at hr hstatus
  have hother : e.id ∉ us.map (·.id) := by
    intro hid
    obtain ⟨u, hu, hid⟩ := List.mem_map.mp hid
    obtain ⟨c, hc, hcid⟩ := List.mem_map.mp (hids u hu)
    obtain ⟨a, ha, haid⟩ := unmoved_mem hl hc
    obtain ⟨hastored, -, haw⟩ := waiting_mem.mp ha
    obtain rfl := eq_of_id_eq s.key he hastored (hid.symm.trans (hcid.symm.trans haid.symm))
    exact hstatus haw
  rw [foldl_applyUpdate_of_not_mem hother]
  exact h e he hr hstatus

theorem place_applyUpdate {a b : QueueEntry} {u : PositionUpdate} (h : place a = place b) :
    place (applyUpdate t a u) = place (applyUpdate t b u) := by
  obtain ⟨hid, hposition⟩ := Prod.mk.inj h
  unfold applyUpdate
  by_cases hu : b.id = u.id
  · rw [if_pos hu, if_pos (hid.trans hu)]
    simp [place, hid]
  · rw [if_neg hu, if_neg (hid ▸ hu)]
    exact h

theorem place_foldl_applyUpdate {a b : QueueEntry} (h : place a = place b) :
    place (us.foldl (applyUpdate t) a) = place (us.foldl (applyUpdate t) b) := by
  induction us generalizing a b with
  | nil => exact h
  | cons u us ih => exact ih (place_applyUpdate h)

/-- A recalculation from the line as it is stored leaves the line in order. -/
theorem inLine_recalculated {etas : List Nat} (hl : Unmoved r l s) (hlen : etas.length = l.length) :
    InLine r (s.updatePositions (recalculation l etas) t) := by
  let after : QueueEntry → QueueEntry := (recalculation l etas).foldl (applyUpdate t)
  have hsame : ∀ e, Renumbered e (after e) := foldl_applyUpdate_renumbered t (recalculation l etas)
  have hwaiting : (s.updatePositions (recalculation l etas) t).waiting r = (s.waiting r).map after :=
    waiting_map (Store.updatePositions_entries s _ t) fun e _ => by
      rw [hsame e]
  have hfactors : (fun e => (after e).position).FactorsThrough place := fun a b hab =>
    congrArg Prod.snd (place_foldl_applyUpdate hab)
  have hafter : ∀ l : List QueueEntry, l.map (fun e => (after e).position) =
      (l.map place).map (Function.extend place (fun e => (after e).position) fun _ => none) := by
    intro l
    rw [List.map_map]
    exact List.map_congr_left fun e _ => (hfactors.extend_apply _ e).symm
  have hnumbered : l.map (fun e => (after e).position) = oneTo l.length := by
    have hplaces : Numbered (l.map after) := by
      intro j d hd
      rw [List.getElem?_map, Option.map_eq_some_iff] at hd
      obtain ⟨e, he, rfl⟩ := hd
      have hlt : j < etas.length := hlen ▸ (List.getElem?_eq_some_iff.mp he).1
      obtain ⟨u, hu⟩ := recalculated_row (t := t) (unmoved_nodup hl) he (List.getElem?_eq_getElem hlt)
      change ((recalculation l etas).foldl (applyUpdate t) e).position = some (j + 1)
      rw [hu]
    have hpositions := numbered_positions hplaces
    rwa [List.map_map, List.length_map] at hpositions
  have hlength : l.length = (s.waiting r).length := by simpa using hl.length_eq
  rw [InLine, positions, hwaiting, List.map_map, List.length_map]
  change ((s.waiting r).map fun e => (after e).position).Perm _
  rw [hafter, ← hlength, ← hnumbered, hafter l]
  exact (hl.map _).symm

theorem mem_of_find {d : QueueEntry} (h : s.find id = some d) : d ∈ s.entries :=
  (find_eq_some.mp h).1

/-- A whole row written with no position unless it waits. -/
def WellPlaced (r : Uuid) (e : QueueEntry) : Prop :=
  e.restaurantId = r ∧ (e.status ≠ .waiting → e.position = none)

theorem cleared_rewrite (hrow : WellPlaced r e) (hwrite : Rewrite e s s') (h : Cleared r s) :
    Cleared r s' := by
  intro d hd hr hstatus
  have hfind : s'.find d.id = some d := find_eq_some.mpr ⟨hd, rfl⟩
  by_cases hid : d.id = e.id
  · obtain ⟨createdAt, hwritten⟩ := hwrite.row
    rw [hid, hwritten] at hfind
    cases hfind
    exact hrow.2 hstatus
  · rw [hwrite.others d.id hid] at hfind
    exact h d (mem_of_find hfind) hr hstatus

abbrev Stored (id : Uuid) (s : Store) : Prop := id ∈ s.entries.map (·.id)

theorem stored_iff : Stored id s ↔ ∃ e, s.find id = some e := by
  constructor
  · intro h
    obtain ⟨e, he, hid⟩ := List.mem_map.mp h
    exact ⟨e, find_eq_some.mpr ⟨he, hid⟩⟩
  · rintro ⟨e, he⟩
    obtain ⟨he, hid⟩ := find_eq_some.mp he
    exact hid ▸ List.mem_map_of_mem he

/-- A row once stored is stored for good. -/
theorem stored_answers {x : Except QueueError (Answer c)} (h : E.Answers c w x w')
    (hid : Stored id w.store) : Stored id w'.store := by
  cases hrow : rewritten c with
  | none =>
    obtain ⟨⟨f, hentries, hf⟩, -⟩ := kept_answers hrow h
    obtain ⟨e, he, rfl⟩ := List.mem_map.mp hid
    have hsame : (f e).id = e.id := by rw [hf e]
    rw [Stored, hentries, ← hsame]
    exact List.mem_map_of_mem (List.mem_map_of_mem he)
  | some e =>
    obtain err | a := x
    · rwa [Stored, (rejected_still h).store]
    obtain ⟨hwrite, -⟩ := rewritten_answers hrow h
    rw [stored_iff] at hid ⊢
    by_cases hne : id = e.id
    · obtain ⟨createdAt, hwritten⟩ := hwrite.row
      exact ⟨_, hne ▸ hwritten⟩
    · rwa [hwrite.others id hne]

/-- Where no call fails, only a transaction may be rejected. -/
def Transaction : Call → Prop
  | .createWithHistory _ _ | .assignTablesWithHistory _ _ _ _ | .updateStatusWithHistory _
  | .batchUpdatePositions _ => True
  | _ => False

theorem resolved_answers {x : Except QueueError (Answer c)} (hfails : ∀ c, ¬ E.fails c)
    (hc : ¬ Transaction c) (h : E.Answers c w x w') : ∃ a, x = .ok a := by
  obtain ⟨t, -, hp | ⟨-, hf, -⟩⟩ := h
  swap
  · exact (hfails c hf).elim
  cases c with
  | createWithHistory | assignTablesWithHistory | updateStatusWithHistory | batchUpdatePositions =>
    exact (hc trivial).elim
  | randomUUID | getRestaurantStatus | checkAvailability => exact hp.1
  | predictEta | findActiveEntries | findActiveTableAssignments =>
    obtain ⟨⟨a, -, ha⟩, -⟩ := hp
    exact ⟨a, ha⟩
  | findActiveByPhone | findActiveByUserId =>
    obtain ⟨⟨a, -, -, ha⟩, -⟩ := hp
    exact ⟨a, ha⟩
  | _ => exact ⟨_, hp.1⟩

theorem updateStatus_resolved {params : UpdateStatusWithHistoryParams}
    {x : Except QueueError QueueEntry} (hfails : ∀ c, ¬ E.fails c)
    (hstored : Stored params.queueEntry.id w.store)
    (h : E.Answers (.updateStatusWithHistory params) w x w') : ∃ a, x = .ok a := by
  obtain ⟨t, -, hp | ⟨-, hf, -⟩⟩ := h
  swap
  · exact (hfails _ hf).elim
  obtain err | a := x
  · exact ((Store.updateStatusWithHistory_error.mp (transacts_error hp).1).1 hstored).elim
  · exact ⟨a, rfl⟩

theorem batch_resolved {x : Except QueueError Unit} (hfails : ∀ c, ¬ E.fails c)
    (hstored : ∀ u ∈ us, Stored u.id w.store) (h : E.Answers (.batchUpdatePositions us) w x w') :
    ∃ a, x = .ok a := by
  obtain ⟨t, -, hp | ⟨-, hf, -⟩⟩ := h
  swap
  · exact (hfails _ hf).elim
  obtain err | a := x
  · exact ((Store.batchUpdatePositions_error.mp (transacts_error hp).1).1 hstored).elim
  · exact ⟨a, rfl⟩

theorem batch_answers (h : E.Answers (.batchUpdatePositions us) w (.ok ()) w') :
    ∃ t, w'.store = w.store.updatePositions us t := by
  obtain ⟨t, -, hp⟩ := answers_ok h
  obtain ⟨-, s, hs, rfl⟩ := transacts_ok hp
  obtain ⟨-, rfl⟩ := Store.batchUpdatePositions_ok.mp hs
  exact ⟨t, rfl⟩

end SpotQueue.LinePositions
