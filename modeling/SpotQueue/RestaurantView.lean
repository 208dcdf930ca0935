import SpotQueue.DurableRows

namespace SpotQueue.RestaurantView

open SpotQueue.Entity SpotQueue.Repository SpotQueue.Environment SpotQueue.Guards SpotQueue.Line
open SpotQueue.RowWrites SpotQueue.Stewardship SpotQueue.DurableRows

variable {s s' : Store} {r id : Uuid} {e d : QueueEntry} {now : Time} {c : Call}

/-- The ticket is stored for the restaurant. -/
def Houses (r : Uuid) (s : Store) (id : Uuid) : Prop := ∃ e ∈ s.entries, e.id = id ∧ e.restaurantId = r

instance : Decidable (Houses r s id) := by
  unfold Houses
  infer_instance

/-- What the database holds of one restaurant: its tickets, and of both other tables
the rows of its tickets. -/
def view (r : Uuid) (s : Store) : Store where
  entries := s.entries.filter (·.restaurantId = r)
  assignments := s.assignments.filter fun a => Houses r s a.queueEntryId
  history := s.history.filter fun h => Houses r s h.queueEntryId
  key := s.key.sublist (List.filter_sublist.map _)

theorem store_eq {s t : Store} (hentries : s.entries = t.entries)
    (hassignments : s.assignments = t.assignments) (hhistory : s.history = t.history) : s = t := by
  cases s
  cases t
  cases hentries
  cases hassignments
  cases hhistory
  rfl

theorem mem_view : e ∈ (view r s).entries ↔ e ∈ s.entries ∧ e.restaurantId = r := by
  simp [view]

theorem ids_view : id ∈ (view r s).entries.map (·.id) ↔ Houses r s id := by
  rw [List.mem_map]
  constructor
  · rintro ⟨e, he, hid⟩
    exact ⟨e, (mem_view.mp he).1, hid, (mem_view.mp he).2⟩
  · rintro ⟨e, he, hid, hhome⟩
    exact ⟨e, mem_view.mpr ⟨he, hhome⟩, hid⟩

theorem houses_ids (h : Houses r s id) : id ∈ s.entries.map (·.id) := by
  obtain ⟨e, he, hid, -⟩ := h
  exact hid ▸ List.mem_map_of_mem he

theorem houses_mem (he : e ∈ s.entries) : Houses r s e.id ↔ e.restaurantId = r := by
  constructor
  · rintro ⟨d, hd, hid, hhome⟩
    rwa [← eq_of_id_eq s.key hd he hid]
  · exact fun hhome => ⟨e, he, rfl, hhome⟩

section queries

variable {l : List QueueEntry}

theorem view_find : (view r s).find id = (s.find id).filter (·.restaurantId = r) := by
  ext e
  rw [Option.filter_eq_some_iff, find_eq_some, find_eq_some, mem_view, decide_eq_true_eq]
  exact and_right_comm

theorem view_waiting (r : Uuid) (s : Store) : (view r s).waiting r = s.waiting r := by
  rw [Store.waiting, Store.waiting, view, List.filter_filter]
  refine List.filter_congr fun e _ => ?_
  simp only [← Bool.decide_and, decide_eq_decide]
  tauto

theorem view_activeByPhone (r : Uuid) (s : Store) (phone : String) :
    (view r s).activeByPhone r phone = s.activeByPhone r phone := by
  rw [Store.activeByPhone, Store.activeByPhone, view_waiting]

theorem view_isLine : IsLine (view r s) r l ↔ IsLine s r l := by
  constructor
  · rintro ⟨hperm, hsorted⟩
    exact ⟨view_waiting r s ▸ hperm, hsorted⟩
  · rintro ⟨hperm, hsorted⟩
    exact ⟨(view_waiting r s).symm ▸ hperm, hsorted⟩

theorem view_metrics {q : String} (hq : .ofText q = r) (startOfDay : Time) :
    (view r s).getRegistrationMetrics q startOfDay = s.getRegistrationMetrics q startOfDay := by
  have hcount : (view r s).entries.countP (fun e => e.restaurantId = r ∧ startOfDay ≤ e.createdAt) =
      s.entries.countP fun e => e.restaurantId = r ∧ startOfDay ≤ e.createdAt := by
    rw [view, List.countP_filter]
    refine List.countP_congr fun e _ => ?_
    simp only [← Bool.decide_and, decide_eq_true_eq]
    tauto
  rw [Store.getRegistrationMetrics, Store.getRegistrationMetrics, hq, view_waiting, hcount]

theorem view_aheadAtJoin {q : String} (hq : .ofText q = r) (joinedAt : Time) :
    (view r s).countPeopleAheadAtJoin q joinedAt = s.countPeopleAheadAtJoin q joinedAt := by
  rw [Store.countPeopleAheadAtJoin, Store.countPeopleAheadAtJoin, hq, view, List.filter_filter]
  refine congrArg sumPartySize (List.filter_congr fun e _ => ?_)
  simp only [← Bool.decide_and, decide_eq_decide]
  exact and_iff_left_of_imp And.left

/-- A user known at this restaurant only is looked up in its rows only. -/
theorem view_activeByUserId {u : Uuid} (hu : ∀ e ∈ s.entries, e.userId = some u → e.restaurantId = r) :
    (view r s).activeByUserId u = s.activeByUserId u := by
  rw [Store.activeByUserId, Store.activeByUserId, view, List.filter_filter]
  refine List.filter_congr fun e he => ?_
  simp only [← Bool.decide_and, decide_eq_decide]
  exact and_iff_left_of_imp fun h => hu e he h.1

theorem view_activeAssignments (h : Houses r s id) :
    (view r s).activeAssignments id = s.activeAssignments id := by
  rw [Store.activeAssignments, Store.activeAssignments, view, List.filter_filter]
  refine List.filter_congr fun a _ => ?_
  simp only [← Bool.decide_and, decide_eq_decide]
  refine and_iff_left_of_imp ?_
  rintro ⟨rfl, -⟩
  exact h

end queries

section writes

/-- Rows rewritten where they are, none of them for another restaurant, are rewritten
in the view. -/
theorem view_mapEntries {f : QueueEntry → QueueEntry} (hf : ∀ e, (f e).id = e.id)
    (hhome : ∀ e ∈ s.entries, (f e).restaurantId = e.restaurantId) :
    view r (s.mapEntries f hf) = (view r s).mapEntries f hf := by
  have hhouses : ∀ id, Houses r (s.mapEntries f hf) id ↔ Houses r s id := by
    intro id
    constructor
    · rintro ⟨d, hd, hid, hr⟩
      obtain ⟨e, he, rfl⟩ := List.mem_map.mp hd
      exact ⟨e, he, (hf e).symm.trans hid, (hhome e he).symm.trans hr⟩
    · rintro ⟨e, he, hid, hr⟩
      exact ⟨f e, List.mem_map_of_mem he, (hf e).trans hid, (hhome e he).trans hr⟩
  apply store_eq
  · change (s.entries.map f).filter _ = (s.entries.filter _).map f
    rw [List.filter_map]
    refine congrArg (List.map f) (List.filter_congr fun e he => ?_)
    rw [Function.comp_apply, hhome e he]
  · exact List.filter_congr fun a _ => by rw [decide_eq_decide]; exact hhouses a.queueEntryId
  · exact List.filter_congr fun h _ => by rw [decide_eq_decide]; exact hhouses h.queueEntryId

theorem mapEntries_fixed {f : QueueEntry → QueueEntry} (hf : ∀ e, (f e).id = e.id)
    (hfixed : ∀ e ∈ s.entries, f e = e) : s.mapEntries f hf = s :=
  store_eq ((List.map_congr_left hfixed).trans (List.map_id _)) rfl rfl

theorem view_assign {as : List TableAssignment} (has : ∀ a ∈ as, a.queueEntryId = id) :
    view r (s.assign as) = if Houses r s id then (view r s).assign as else view r s := by
  have hfilter : as.filter (fun a => Houses r s a.queueEntryId) = if Houses r s id then as else [] := by
    split
    · rename_i h
      exact List.filter_eq_self.mpr fun a ha => decide_eq_true (has a ha ▸ h)
    · rename_i h
      exact List.filter_eq_nil_iff.mpr fun a ha ha' => h (has a ha ▸ of_decide_eq_true ha')
  apply store_eq
  · split <;> rfl
  · change (s.assignments ++ as).filter _ = _
    rw [List.filter_append]
    change _ ++ as.filter (fun a => Houses r s a.queueEntryId) = _
    rw [hfilter]
    split
    · rfl
    · exact List.append_nil _
  · split <;> rfl

theorem view_log (h : StatusHistory) : view r (s.log h) =
    if Houses r s h.queueEntryId then (view r s).log h else view r s := by
  apply store_eq
  · split <;> rfl
  · split <;> rfl
  · change (s.history ++ [h]).filter (fun h => Houses r s h.queueEntryId) = _
    rw [List.filter_append]
    split
    · rename_i hhouses
      rw [List.filter_cons_of_pos (by simpa using hhouses)]
      rfl
    · rename_i hhouses
      rw [List.filter_cons_of_neg (by simpa using hhouses)]
      exact List.append_nil _

/-- The row put in the place of a stored one is for the same restaurant. -/
theorem view_put (hparty : ∀ c ∈ s.entries, c.id = e.id → SameParty c e) :
    view r (s.put e) = (view r s).put e := by
  apply view_mapEntries
  intro c hc
  split
  · rename_i hid
    exact (hparty c hc hid).restaurantId_eq
  · rfl

theorem put_houses (hparty : ∀ c ∈ s.entries, c.id = e.id → SameParty c e) :
    Houses r (s.put e) id ↔ Houses r s id := by
  rw [← ids_view, ← ids_view, view_put hparty, Store.put, mapEntries_ids]

theorem put_absent (h : e.id ∉ s.entries.map (·.id)) : s.put e = s := by
  apply mapEntries_fixed
  intro c hc
  rw [if_neg]
  rintro hid
  exact h (hid ▸ List.mem_map_of_mem hc)

theorem view_save (hstored : e.id ∈ s.entries.map (·.id))
    (hparty : ∀ c ∈ s.entries, c.id = e.id → SameParty c e) :
    view r (s.save e) = if Houses r s e.id then (view r s).save e else view r s := by
  rw [Store.save, dif_pos hstored, view_mapEntries]
  swap
  · intro c hc
    split
    · rename_i hid
      exact (hparty c hc hid).restaurantId_eq
    · rfl
  split
  · rename_i h
    rw [Store.save, dif_pos (ids_view.mpr h)]
  · rename_i h
    apply mapEntries_fixed
    intro c hc
    rw [if_neg]
    rintro hid
    exact h (hid ▸ ids_view.mp (List.mem_map_of_mem hc))

theorem view_updatePositions (us : List PositionUpdate) (now : Time) :
    view r (s.updatePositions us now) = (view r s).updatePositions us now := by
  apply view_mapEntries
  intro e _
  rw [foldl_applyUpdate_renumbered now us e]

theorem updatePositions_absent {us : List PositionUpdate} (h : ∀ u ∈ us, u.id ∉ s.entries.map (·.id)) :
    s.updatePositions us now = s := by
  apply mapEntries_fixed
  intro e he
  apply foldl_applyUpdate_of_not_mem
  intro hid
  obtain ⟨u, hu, hid⟩ := List.mem_map.mp hid
  exact h u hu (hid ▸ List.mem_map_of_mem he)

theorem view_release (q : String) (now : Time) :
    view r (s.releaseTableAssignments q now) = (view r s).releaseTableAssignments q now := by
  apply store_eq
  · rfl
  · change (s.assignments.map _).filter _ = (s.assignments.filter _).map _
    rw [List.filter_map]
    refine congrArg _ (List.filter_congr fun a _ => ?_)
    rw [Function.comp_apply, decide_eq_decide]
    split <;> rfl
  · rfl

theorem release_absent {q : String} (h : ∀ a ∈ s.assignments, a.queueEntryId ≠ .ofText q) :
    s.releaseTableAssignments q now = s := by
  refine store_eq rfl ((List.map_congr_left fun a ha => ?_).trans (List.map_id _)) rfl
  exact if_neg fun hactive => h a ha hactive.1

theorem insert_houses (hfresh : e.id ∉ s.entries.map (·.id)) (hid : id ∈ s.entries.map (·.id)) :
    Houses r (s.insert e hfresh) id ↔ Houses r s id := by
  constructor
  · rintro ⟨d, hd, hdid, hr⟩
    obtain hd | hd := List.mem_append.mp hd
    · exact ⟨d, hd, hdid, hr⟩
    · cases List.mem_singleton.mp hd
      exact (hfresh (hdid ▸ hid)).elim
  · rintro ⟨d, hd, hdid, hr⟩
    exact ⟨d, List.mem_append_left _ hd, hdid, hr⟩

theorem view_insert (href : Referenced s) (hfresh : e.id ∉ s.entries.map (·.id)) :
    view r (s.insert e hfresh) = if e.restaurantId = r then
      (view r s).insert e (fun h => hfresh (houses_ids (ids_view.mp h))) else view r s := by
  have hassignments : (view r (s.insert e hfresh)).assignments = (view r s).assignments :=
    List.filter_congr fun a ha => by
      rw [decide_eq_decide]
      exact insert_houses hfresh (href.assignments a ha)
  have hhistory : (view r (s.insert e hfresh)).history = (view r s).history :=
    List.filter_congr fun h hh => by
      rw [decide_eq_decide]
      exact insert_houses hfresh (href.history h hh)
  apply store_eq
  · change (s.entries ++ [e]).filter (fun e => e.restaurantId = r) = _
    rw [List.filter_append]
    split
    · rename_i hhome
      rw [List.filter_cons_of_pos (by simpa using hhome)]
      rfl
    · rename_i hhome
      rw [List.filter_cons_of_neg (by simpa using hhome)]
      exact List.append_nil _
  · split <;> exact hassignments
  · split <;> exact hhistory

end writes

section steps

variable {home : String} {m : QueueEntry → Prop}

theorem stored_houses (h : Stored home s d) (he : SameParty d e) :
    Houses r s e.id ↔ .ofText home = r := by
  obtain ⟨hhome, f, hf, hdf⟩ := h
  rw [he.id_eq, ← hdf.id_eq, houses_mem hf, hdf.restaurantId_eq, hhome]

theorem known_houses (hm : ∀ d, m d → Stored home s d) (h : Knows m id) :
    Houses r s id ↔ .ofText home = r := by
  obtain ⟨d, hd, rfl⟩ := h
  exact stored_houses (hm d hd) (sameParty_refl d)

/-- What a restaurant's own write does to the database, it does to its view. -/
theorem written_view (hhome : .ofText home = r) (hallows : (stewardship home).allows m c)
    (hm : ∀ d, m d → Stored home s d) (href : Referenced s)
    (hcreate : ∀ e changedBy, c = .createWithHistory e changedBy → e.id ∉ s.entries.map (·.id) ∧
      ∀ u ∈ e.userId, ∀ d ∈ s.entries, d.userId = some u → d.restaurantId = r) :
    written c (view r s) now = (written c s now).map (view r) := by
  cases c with
  | createWithHistory e changedBy =>
    obtain ⟨hfresh, huser⟩ := hcreate e changedBy rfl
    have hr : e.restaurantId = r := hallows.trans hhome
    have husers : (∃ u ∈ e.userId, (view r s).activeByUserId u ≠ []) ↔
        ∃ u ∈ e.userId, s.activeByUserId u ≠ [] := by
      refine exists_congr fun u => and_congr_right fun hu => ?_
      rw [view_activeByUserId (huser u hu)]
    have hphone : (view r s).activeByPhone e.restaurantId e.phone =
        s.activeByPhone e.restaurantId e.phone := by rw [hr, view_activeByPhone]
    have hfresh' : e.id ∉ (view r s).entries.map (·.id) := fun h => hfresh (houses_ids (ids_view.mp h))
    change Store.createWithHistory _ _ _ _ = (Store.createWithHistory _ _ _ _).map _
    rw [Store.createWithHistory, Store.createWithHistory, hphone, dif_neg hfresh, dif_neg hfresh']
    simp only [husers]
    split
    · rfl
    split
    · rfl
    have hinserted : Houses r (s.insert e hfresh) e.id :=
      ⟨e, List.mem_append_right _ List.mem_cons_self, rfl, hr⟩
    change _ = Except.ok (view r _)
    rw [view_log, if_pos hinserted, view_insert href, if_pos hr]
  | assignTablesWithHistory e tableIds assignedBy previousStatus =>
    obtain ⟨d, hd, he⟩ := hallows
    obtain ⟨hstored, hparty⟩ := written_party (hm d hd) he
    have hhouses := (stored_houses (hm d hd) he).mpr hhome
    have hassigned : ∀ a ∈ newAssignments e tableIds assignedBy now, a.queueEntryId = e.id := by
      intro a ha
      obtain ⟨tableId, -, rfl⟩ := List.mem_map.mp ha
      rfl
    change Store.assignTablesWithHistory _ _ _ _ _ _ = (Store.assignTablesWithHistory _ _ _ _ _ _).map _
    rw [Store.assignTablesWithHistory, Store.assignTablesWithHistory, if_pos hstored,
      if_pos (ids_view.mpr hhouses)]
    change _ = Except.ok (view r _)
    rw [view_log, if_pos ((put_houses (s := s.assign _) hparty).mpr hhouses),
      view_put (s := s.assign _) hparty, view_assign hassigned, if_pos hhouses]
  | updateStatusWithHistory params =>
    obtain ⟨d, hd, he⟩ := hallows
    obtain ⟨hstored, hparty⟩ := written_party (hm d hd) he
    have hhouses := (stored_houses (hm d hd) he).mpr hhome
    change Store.updateStatusWithHistory _ _ _ = (Store.updateStatusWithHistory _ _ _).map _
    rw [Store.updateStatusWithHistory, Store.updateStatusWithHistory, if_pos hstored,
      if_pos (ids_view.mpr hhouses)]
    change _ = Except.ok (view r _)
    rw [view_log, if_pos ((put_houses hparty).mpr hhouses), view_put hparty]
  | save e =>
    obtain ⟨d, hd, he⟩ := hallows
    obtain ⟨hstored, hparty⟩ := written_party (hm d hd) he
    change _ = Except.ok (view r _)
    rw [view_save hstored hparty, if_pos ((stored_houses (hm d hd) he).mpr hhome)]
    rfl
  | releaseTableAssignments q => exact congrArg Except.ok (view_release q now).symm
  | batchUpdatePositions us =>
    have hhouses : ∀ u ∈ us, Houses r s u.id :=
      fun u hu => (known_houses hm (hallows u hu)).mpr hhome
    change Store.batchUpdatePositions _ _ _ = (Store.batchUpdatePositions _ _ _).map _
    rw [Store.batchUpdatePositions, Store.batchUpdatePositions,
      if_pos fun u hu => houses_ids (hhouses u hu), if_pos fun u hu => ids_view.mpr (hhouses u hu)]
    exact congrArg Except.ok (view_updatePositions us now).symm
  | _ => rfl

/-- What another restaurant writes is not in view. -/
theorem written_elsewhere (hhome : .ofText home ≠ r) (hallows : (stewardship home).allows m c)
    (hm : ∀ d, m d → Stored home s d) (href : Referenced s) (h : written c s now = .ok s') :
    view r s' = view r s := by
  cases c with
  | createWithHistory e changedBy =>
    obtain ⟨-, -, hfresh, rfl⟩ := Store.createWithHistory_ok.mp h
    have hr : e.restaurantId ≠ r := fun hr => hhome (hallows.symm.trans hr)
    have hinserted : ¬ Houses r (s.insert e hfresh) e.id := by
      rw [houses_mem (List.mem_append_right _ List.mem_cons_self)]
      exact hr
    rw [view_log, if_neg hinserted, view_insert href, if_neg hr]
  | assignTablesWithHistory e tableIds assignedBy previousStatus =>
    obtain ⟨d, hd, he⟩ := hallows
    obtain ⟨-, rfl⟩ := Store.assignTablesWithHistory_ok.mp h
    have hparty := (written_party (hm d hd) he).2
    have hhouses := mt (stored_houses (hm d hd) he).mp hhome
    have hassigned : ∀ a ∈ newAssignments e tableIds assignedBy now, a.queueEntryId = e.id := by
      intro a ha
      obtain ⟨tableId, -, rfl⟩ := List.mem_map.mp ha
      rfl
    rw [view_log, if_neg (mt (put_houses (s := s.assign _) hparty).mp hhouses),
      view_put (s := s.assign _) hparty, view_assign hassigned, if_neg hhouses,
      put_absent (mt ids_view.mp hhouses)]
  | updateStatusWithHistory params =>
    obtain ⟨d, hd, he⟩ := hallows
    obtain ⟨-, rfl⟩ := Store.updateStatusWithHistory_ok.mp h
    have hparty := (written_party (hm d hd) he).2
    have hhouses := mt (stored_houses (hm d hd) he).mp hhome
    rw [view_log, if_neg (mt (put_houses hparty).mp hhouses), view_put hparty,
      put_absent (mt ids_view.mp hhouses)]
  | save e =>
    obtain ⟨d, hd, he⟩ := hallows
    obtain ⟨hstored, hparty⟩ := written_party (hm d hd) he
    cases h
    rw [view_save hstored hparty, if_neg (mt (stored_houses (hm d hd) he).mp hhome)]
  | releaseTableAssignments q =>
    cases h
    rw [view_release, release_absent]
    intro a ha hid
    have hhouses : Houses r s a.queueEntryId := of_decide_eq_true (List.mem_filter.mp ha).2
    exact hhome ((known_houses hm hallows).mp (hid ▸ hhouses))
  | batchUpdatePositions us =>
    obtain ⟨-, rfl⟩ := Store.batchUpdatePositions_ok.mp h
    rw [view_updatePositions, updatePositions_absent]
    exact fun u hu hid => hhome ((known_houses hm (hallows u hu)).mp (ids_view.mp hid))
  | _ =>
    cases h
    rfl

end steps

end SpotQueue.RestaurantView
