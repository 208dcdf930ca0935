import SpotQueue.UseCases

namespace SpotQueue.Line

open SpotQueue.Entity SpotQueue.Repository SpotQueue.Environment SpotQueue.Recalculator
open SpotQueue.UseCases

variable {s s' : Store} {r : Uuid} {l l' : List QueueEntry} {us : List PositionUpdate}
  {e d : QueueEntry} {t : Time}

theorem waiting_mem : e ∈ s.waiting r ↔ e ∈ s.entries ∧ e.restaurantId = r ∧ e.status = .waiting := by
  simp [Store.waiting]

theorem waiting_nodup (s : Store) (r : Uuid) : ((s.waiting r).map (·.id)).Nodup :=
  s.key.sublist (List.filter_sublist.map _)

theorem isLine_nodup (h : IsLine s r l) : (l.map (·.id)).Nodup :=
  (h.perm.map _).nodup_iff.mpr (waiting_nodup s r)

theorem isLine_mem (h : IsLine s r l) :
    e ∈ l ↔ e ∈ s.entries ∧ e.restaurantId = r ∧ e.status = .waiting :=
  h.perm.mem_iff.trans waiting_mem

theorem lineLE_total (a b : QueueEntry) : LineLE a b ∨ LineLE b a := by
  unfold LineLE
  cases a.position with
  | none =>
    cases b.position with
    | none => exact Nat.le_total _ _
    | some q => exact .inr trivial
  | some p =>
    cases b.position with
    | none => exact .inl trivial
    | some q => grind

theorem lineLE_trans {a b c : QueueEntry} (hab : LineLE a b) (hbc : LineLE b c) : LineLE a c := by
  unfold LineLE at *
  grind

instance : Std.Total LineLE := ⟨lineLE_total⟩

instance : IsTrans QueueEntry LineLE := ⟨fun _ _ _ => lineLE_trans⟩

theorem findActiveEntries_isLine (s : Store) (restaurantId : String) :
    IsLine s (.ofText restaurantId) (s.findActiveEntries restaurantId) :=
  ⟨List.perm_insertionSort _ _, List.pairwise_insertionSort _ _⟩

/-- Ids are a primary key: two rows of one id are one row. -/
theorem eq_of_id_eq {l : List QueueEntry} (hkey : (l.map (·.id)).Nodup) (he : e ∈ l) (hd : d ∈ l)
    (hid : e.id = d.id) : e = d :=
  List.inj_on_of_nodup_map hkey he hd hid

theorem find_eq_some {id : Uuid} : s.find id = some e ↔ e ∈ s.entries ∧ e.id = id := by
  constructor
  · intro h
    exact ⟨List.mem_of_find?_eq_some h, by simpa using List.find?_some h⟩
  · rintro ⟨he, rfl⟩
    have hsome : (s.find e.id).isSome := by
      rw [Store.find, List.find?_isSome]
      exact ⟨e, he, by simp⟩
    obtain ⟨d, hd⟩ := Option.isSome_iff_exists.mp hsome
    have hdid : d.id = e.id := by simpa using List.find?_some hd
    rw [hd, eq_of_id_eq s.key (List.mem_of_find?_eq_some hd) he hdid]

theorem mapEntries_ids (s : Store) (f : QueueEntry → QueueEntry) (hf : ∀ e, (f e).id = e.id) :
    (s.mapEntries f hf).entries.map (·.id) = s.entries.map (·.id) := by
  simp [Store.mapEntries, Function.comp_def, hf]

theorem updatePositions_nil (s : Store) (t : Time) : s.updatePositions [] t = s := by
  obtain ⟨entries, assignments, history, key⟩ := s
  simp [Store.updatePositions, Store.mapEntries]

theorem updatePositions_ids (s : Store) (us : List PositionUpdate) (t : Time) :
    (s.updatePositions us t).entries.map (·.id) = s.entries.map (·.id) :=
  mapEntries_ids s _ _

theorem foldl_applyUpdate_of_not_mem (h : e.id ∉ us.map (·.id)) :
    us.foldl (applyUpdate t) e = e := by
  induction us with
  | nil => rfl
  | cons u us ih =>
    simp only [List.map_cons, List.mem_cons, not_or] at h
    rw [List.foldl_cons, applyUpdate, if_neg h.1, ih h.2]

theorem foldl_applyUpdate_of_mem {u : PositionUpdate} (hkey : (us.map (·.id)).Nodup) (hu : u ∈ us)
    (hid : e.id = u.id) : us.foldl (applyUpdate t) e = applyUpdate t e u := by
  induction us with
  | nil => cases hu
  | cons v us ih =>
    rw [List.map_cons, List.nodup_cons] at hkey
    rw [List.foldl_cons]
    obtain rfl | hu := List.mem_cons.mp hu
    · apply foldl_applyUpdate_of_not_mem
      rw [applyUpdate_id, hid]
      exact hkey.1
    · have hne : e.id ≠ v.id := fun h => hkey.1 (h ▸ hid ▸ List.mem_map_of_mem hu)
      rw [applyUpdate, if_neg hne]
      exact ih hkey.2 hu

@[simp] theorem entryInputs_length (i ahead : Nat) (l : List QueueEntry) :
    (entryInputs i ahead l).length = l.length := by
  induction l generalizing i ahead with
  | nil => rfl
  | cons e l ih => simp [entryInputs, ih]

theorem entryInputs_getElem? (i ahead : Nat) (l : List QueueEntry) (j : Nat) :
    (entryInputs i ahead l)[j]? =
      l[j]?.map fun e => ⟨e, i + j + 1, ahead + sumPartySize (l.take j)⟩ := by
  induction l generalizing i ahead j with
  | nil => simp [entryInputs]
  | cons e l ih =>
    cases j with
    | zero => simp [entryInputs, sumPartySize]
    | succ j =>
      simp only [entryInputs, List.getElem?_cons_succ, ih, List.take_succ_cons, sumPartySize,
        List.map_cons, List.sum_cons]
      congr 1
      funext d
      congr 1 <;> omega

theorem entryInputs_ids (i ahead : Nat) (l : List QueueEntry) :
    (entryInputs i ahead l).map (·.entry.id) = l.map (·.id) := by
  induction l generalizing i ahead with
  | nil => rfl
  | cons e l ih => simp [entryInputs, ih]

theorem deltas_ids (inputs : List EntryInput) (etas : List Nat) :
    ((deltas inputs etas).map (·.id)).Sublist (inputs.map (·.entry.id)) := by
  induction inputs generalizing etas with
  | nil => simp [deltas]
  | cons input inputs ih =>
    cases etas with
    | nil => simp [deltas]
    | cons m etas =>
      have htail := ih etas
      unfold deltas at htail ⊢
      rw [List.zip_cons_cons, List.filterMap_cons]
      rw [delta]
      split
      · exact htail.cons _
      · rename_i d hd
        split at hd
        · cases hd
          exact htail.cons_cons _
        · cases hd

/-- The batch of one recalculation. -/
def recalculation (l : List QueueEntry) (etas : List Nat) : List PositionUpdate :=
  (deltas (entryInputs 0 0 l) etas).map (·.update)

theorem recalculation_ids (l : List QueueEntry) (etas : List Nat) :
    ((recalculation l etas).map (·.id)).Sublist (l.map (·.id)) := by
  have h := deltas_ids (entryInputs 0 0 l) etas
  rw [entryInputs_ids] at h
  simpa [recalculation, Function.comp_def, PositionDelta.update] using h

theorem index_unique (hkey : (l.map (·.id)).Nodup) {i j : Nat} (hi : l[i]? = some d)
    (hj : l[j]? = some e) (hid : d.id = e.id) : i = j ∧ d = e := by
  have hlt : i < (l.map (·.id)).length := by
    simpa using (List.getElem?_eq_some_iff.mp hi).1
  have hij : i = j := (List.getElem?_inj hlt hkey).mp (by simp [hi, hj, hid])
  subst hij
  exact ⟨rfl, Option.some.inj (hi.symm.trans hj)⟩

theorem mem_deltas {etas : List Nat} {δ : PositionDelta} :
    δ ∈ deltas (entryInputs 0 0 l) etas ↔ ∃ j e m, l[j]? = some e ∧ etas[j]? = some m ∧
      (e.position ≠ some (j + 1) ∨ e.estimatedWaitMinutes ≠ some m) ∧
      δ = ⟨e.id, e.position, j + 1, e.estimatedWaitMinutes, m, e.partySize⟩ := by
  rw [deltas, List.mem_filterMap]
  simp only [List.mem_iff_getElem?, List.getElem?_zip_eq_some, entryInputs_getElem?,
    Option.map_eq_some_iff, Prod.exists]
  constructor
  · rintro ⟨input, m, ⟨j, ⟨e, he, rfl⟩, hm⟩, hδ⟩
    simp only [delta, Nat.zero_add] at hδ
    split at hδ
    · rename_i hne
      exact ⟨j, e, m, he, hm, hne, (Option.some.inj hδ).symm⟩
    · cases hδ
  · rintro ⟨j, e, m, he, hm, hne, rfl⟩
    refine ⟨_, m, ⟨j, ⟨e, he, rfl⟩, hm⟩, ?_⟩
    simp only [delta, Nat.zero_add]
    rw [if_pos hne]

/-- A row of the line ends with its place in the line and its prediction, whether
or not the recalculation saw a difference. -/
theorem recalculated_row (hkey : (l.map (·.id)).Nodup) {etas : List Nat} {j m : Nat}
    (hj : l[j]? = some e) (hm : etas[j]? = some m) :
    ∃ u, (recalculation l etas).foldl (applyUpdate t) e =
      { e with position := some (j + 1), estimatedWaitMinutes := some m, updatedAt := u } := by
  by_cases hd : e.position ≠ some (j + 1) ∨ e.estimatedWaitMinutes ≠ some m
  · have hu : (⟨e.id, j + 1, some m⟩ : PositionUpdate) ∈ recalculation l etas :=
      List.mem_map.mpr ⟨_, mem_deltas.mpr ⟨j, e, m, hj, hm, hd, rfl⟩, rfl⟩
    have hkeys := hkey.sublist (recalculation_ids l etas)
    refine ⟨t, ?_⟩
    rw [foldl_applyUpdate_of_mem hkeys hu rfl]
    simp [applyUpdate]
  · rw [foldl_applyUpdate_of_not_mem]
    · rw [not_or, not_not, not_not] at hd
      exact ⟨e.updatedAt, by rw [← hd.1, ← hd.2]⟩
    · intro hid
      obtain ⟨u, hu, hid⟩ := List.mem_map.mp hid
      obtain ⟨δ, hδ, rfl⟩ := List.mem_map.mp hu
      obtain ⟨i, d, n, hi, hn, hne, rfl⟩ := mem_deltas.mp hδ
      obtain ⟨rfl, rfl⟩ := index_unique hkey hi hj hid
      rw [hm] at hn
      cases hn
      exact hd hne

theorem recalculated_other {etas : List Nat} (h : e.id ∉ l.map (·.id)) :
    (recalculation l etas).foldl (applyUpdate t) e = e :=
  foldl_applyUpdate_of_not_mem fun hid => h ((recalculation_ids l etas).subset hid)

theorem mem_reorderUpdates {u : PositionUpdate} :
    u ∈ reorderUpdates l ↔ ∃ j e, l[j]? = some e ∧ u = ⟨e.id, j + 1, none⟩ := by
  simp only [reorderUpdates, List.mem_iff_getElem?, List.getElem?_mapIdx,
    Option.map_eq_some_iff]
  grind

theorem reorderUpdates_ids (l : List QueueEntry) :
    (reorderUpdates l).map (·.id) = l.map (·.id) := by
  apply List.ext_getElem?
  intro j
  simp [reorderUpdates, Function.comp_def]

theorem reordered_row (hkey : (l.map (·.id)).Nodup) {j : Nat} (hj : l[j]? = some e) :
    (reorderUpdates l).foldl (applyUpdate t) e =
      { e with position := some (j + 1), updatedAt := t } := by
  have hu := mem_reorderUpdates.mpr ⟨j, e, hj, rfl⟩
  rw [foldl_applyUpdate_of_mem (by rwa [reorderUpdates_ids]) hu rfl]
  simp [applyUpdate]

theorem reordered_other (h : e.id ∉ l.map (·.id)) :
    (reorderUpdates l).foldl (applyUpdate t) e = e :=
  foldl_applyUpdate_of_not_mem (by rwa [reorderUpdates_ids])

theorem isLine_mem_of_id (hline : IsLine s r l) (he : e ∈ s.entries) (hid : e.id ∈ l.map (·.id)) :
    e ∈ l := by
  obtain ⟨d, hd, hid⟩ := List.mem_map.mp hid
  rwa [← eq_of_id_eq s.key ((isLine_mem hline).mp hd).1 he hid]

theorem renumbered_row {etas : List Nat} {j : Nat} (hline : IsLine s r l)
    (hlen : etas.length = l.length) (hj : l[j]? = some e) :
    ∃ m u, etas[j]? = some m ∧ (recalculation l etas).foldl (applyUpdate t) e =
      { e with position := some (j + 1), estimatedWaitMinutes := some m, updatedAt := u } := by
  have hlt : j < etas.length := hlen ▸ (List.getElem?_eq_some_iff.mp hj).1
  have hm : etas[j]? = some etas[j] := List.getElem?_eq_getElem hlt
  obtain ⟨u, hu⟩ := recalculated_row (isLine_nodup hline) hj hm
  exact ⟨_, u, hm, hu⟩

/-- A stored row either stands in the line that is renumbered or is left alone. -/
theorem renumber_cases {etas : List Nat} (hline : IsLine s r l) (hlen : etas.length = l.length)
    (he : e ∈ s.entries) :
    (e ∉ l ∧ (recalculation l etas).foldl (applyUpdate t) e = e) ∨
      ∃ j m u, l[j]? = some e ∧ etas[j]? = some m ∧
        (recalculation l etas).foldl (applyUpdate t) e =
          { e with position := some (j + 1), estimatedWaitMinutes := some m, updatedAt := u } := by
  by_cases hmem : e ∈ l
  · obtain ⟨j, hj⟩ := List.mem_iff_getElem?.mp hmem
    obtain ⟨m, u, hm, hu⟩ := renumbered_row hline hlen hj
    exact .inr ⟨j, m, u, hj, hm, hu⟩
  · exact .inl ⟨hmem, recalculated_other fun hid => hmem (isLine_mem_of_id hline he hid)⟩

theorem reorder_cases (hline : IsLine s r l) (hperm : l'.Perm l) (he : e ∈ s.entries) :
    (e ∉ l ∧ (reorderUpdates l').foldl (applyUpdate t) e = e) ∨
      ∃ j, l'[j]? = some e ∧ (reorderUpdates l').foldl (applyUpdate t) e =
        { e with position := some (j + 1), updatedAt := t } := by
  by_cases hmem : e ∈ l
  · obtain ⟨j, hj⟩ := List.mem_iff_getElem?.mp (hperm.mem_iff.mpr hmem)
    have hkey : (l'.map (·.id)).Nodup := (hperm.map _).nodup_iff.mpr (isLine_nodup hline)
    exact .inr ⟨j, hj, reordered_row hkey hj⟩
  · refine .inl ⟨hmem, reordered_other fun hid => hmem (isLine_mem_of_id hline he ?_)⟩
    exact (hperm.map _).mem_iff.mp hid

/-- The rows carry their places. -/
def Numbered (l : List QueueEntry) : Prop := ∀ j e, l[j]? = some e → e.position = some (j + 1)

/-- Positions that are pairwise different leave one order to read the rows in. -/
theorem numbered_line_unique (hperm : l.Perm (s.waiting r)) (hl : Numbered l)
    (hline : IsLine s r l') : l' = l := by
  have hsorted : l.Pairwise LineLE := by
    rw [List.pairwise_iff_getElem]
    intro i j hi hj hij
    simp only [LineLE, hl i _ (List.getElem?_eq_getElem hi), hl j _ (List.getElem?_eq_getElem hj)]
    omega
  refine List.Perm.eq_of_pairwise (fun a b ha hb hab hba => ?_) hline.sorted hsorted
    (hline.perm.trans hperm.symm)
  have hal : a ∈ l := hperm.mem_iff.mpr (hline.perm.mem_iff.mp ha)
  obtain ⟨i, hi⟩ := List.mem_iff_getElem?.mp hal
  obtain ⟨j, hj⟩ := List.mem_iff_getElem?.mp hb
  simp only [LineLE, hl i a hi, hl j b hj] at hab hba
  obtain rfl : i = j := by omega
  exact Option.some.inj (hi.symm.trans hj)

theorem sumPartySize_map {g : QueueEntry → QueueEntry} (hg : ∀ e ∈ l, (g e).partySize = e.partySize) :
    sumPartySize (l.map g) = sumPartySize l := by
  rw [sumPartySize, List.map_map]
  exact congrArg List.sum (List.map_congr_left hg)

theorem sumPartySize_perm (h : l.Perm l') : sumPartySize l = sumPartySize l' :=
  (h.map _).sum_nat

theorem waiting_map {g : QueueEntry → QueueEntry} (hentries : s'.entries = s.entries.map g)
    (hg : ∀ e ∈ s.entries, ((g e).restaurantId = r ∧ (g e).status = .waiting) ↔
      (e.restaurantId = r ∧ e.status = .waiting)) : s'.waiting r = (s.waiting r).map g := by
  rw [Store.waiting, hentries, List.filter_map, Store.waiting]
  congr 1
  apply List.filter_congr
  intro e he
  simp only [Function.comp_apply, decide_eq_decide]
  exact hg e he

end SpotQueue.Line
