import SpotQueue.RowWrites

namespace SpotQueue.Tenancy

open SpotQueue.Entity SpotQueue.Repository SpotQueue.Environment SpotQueue.Recalculator
open SpotQueue.UseCases SpotQueue.Frame SpotQueue.Guards SpotQueue.Line SpotQueue.Recalculation
open SpotQueue.Seating SpotQueue.Leaving SpotQueue.Registration SpotQueue.StoreChanges
open SpotQueue.RowWrites
open SpotQueue.Awaits.AsyncProgram SpotQueue.Awaits.AsyncProtocol

variable {E : Env} {w w' : World} {s u s' : Store} {r : String} {e d : QueueEntry} {now : Time}
  {α β : Type}

/-- Another restaurant's ticket, as the staff use cases compare: by the text of the column. -/
def Foreign (r : String) (e : QueueEntry) : Prop := e.restaurantId.text ≠ r

def assignmentsOf (s : Store) (id : Uuid) : List TableAssignment :=
  s.assignments.filter (·.queueEntryId = id)

def historyOf (s : Store) (id : Uuid) : List StatusHistory :=
  s.history.filter (·.queueEntryId = id)

/-- Nothing of another restaurant changed, no ticket moved to another restaurant,
and none appeared there. -/
structure Isolated (r : String) (s s' : Store) : Prop where
  rows : ∀ e ∈ s.entries, Foreign r e → e ∈ s'.entries
  assignments : ∀ e ∈ s.entries, Foreign r e → assignmentsOf s' e.id = assignmentsOf s e.id
  history : ∀ e ∈ s.entries, Foreign r e → historyOf s' e.id = historyOf s e.id
  homes : ∀ e ∈ s.entries, ∃ d ∈ s'.entries, d.id = e.id ∧ d.restaurantId = e.restaurantId
  added : ∀ d ∈ s'.entries, d.restaurantId ≠ .ofText r → d ∈ s.entries

theorem isolated_refl (s : Store) : Isolated r s s :=
  ⟨fun _ he _ => he, fun _ _ _ => rfl, fun _ _ _ => rfl, fun e he => ⟨e, he, rfl, rfl⟩, fun _ hd _ => hd⟩

theorem isolated_trans (h : Isolated r s u) (h' : Isolated r u s') : Isolated r s s' where
  rows e he hforeign := h'.rows e (h.rows e he hforeign) hforeign
  assignments e he hforeign :=
    (h'.assignments e (h.rows e he hforeign) hforeign).trans (h.assignments e he hforeign)
  history e he hforeign := (h'.history e (h.rows e he hforeign) hforeign).trans (h.history e he hforeign)
  homes e he := by
    obtain ⟨d, hd, hid, hhome⟩ := h.homes e he
    obtain ⟨c, hc, hid', hhome'⟩ := h'.homes d hd
    exact ⟨c, hc, hid'.trans hid, hhome'.trans hhome⟩
  added d hd hhome := h.added d (h'.added d hd hhome) hhome

/-- The ticket is stored and belongs to the restaurant. -/
def Owns (r : String) (s : Store) (id : Uuid) : Prop :=
  ∃ e ∈ s.entries, e.id = id ∧ e.restaurantId.text = r

theorem not_owns (he : e ∈ s.entries) (hforeign : Foreign r e) : ¬ Owns r s e.id := by
  rintro ⟨d, hd, hid, hhome⟩
  exact hforeign (eq_of_id_eq s.key hd he hid ▸ hhome)

theorem owns_isolated {id : Uuid} (h : Owns r s id) (hs : Isolated r s s') : Owns r s' id := by
  obtain ⟨e, he, hid, hhome⟩ := h
  obtain ⟨d, hd, hid', hhome'⟩ := hs.homes e he
  exact ⟨d, hd, hid'.trans hid, hhome' ▸ hhome⟩

/-- A write that rewrites rows in place is isolated if it only concerns tickets
that the restaurant owns. -/
theorem isolated_map {f : QueueEntry → QueueEntry} (hentries : s'.entries = s.entries.map f)
    (hf : ∀ e ∈ s.entries, (f e).id = e.id ∧ (f e).restaurantId = e.restaurantId)
    (hrows : ∀ e ∈ s.entries, ¬ Owns r s e.id → f e = e)
    (hassignments : ∀ id, ¬ Owns r s id → assignmentsOf s' id = assignmentsOf s id)
    (hhistory : ∀ id, ¬ Owns r s id → historyOf s' id = historyOf s id) : Isolated r s s' where
  rows e he hforeign := by
    rw [hentries, ← hrows e he (not_owns he hforeign)]
    exact List.mem_map_of_mem he
  assignments e he hforeign := hassignments _ (not_owns he hforeign)
  history e he hforeign := hhistory _ (not_owns he hforeign)
  homes e he := ⟨f e, hentries ▸ List.mem_map_of_mem he, hf e he⟩
  added d hd hhome := by
    rw [hentries] at hd
    obtain ⟨e, he, rfl⟩ := List.mem_map.mp hd
    have hforeign : Foreign r e := by
      rintro rfl
      rw [(hf e he).2, Uuid.ofText_text] at hhome
      exact hhome rfl
    rw [hrows e he (not_owns he hforeign)]
    exact he

theorem put_row {f : QueueEntry → QueueEntry} (howns : Owns r s d.id) (hhome : d.restaurantId.text = r)
    (hf : ∀ e, if e.id = d.id then (f e).id = d.id ∧ (f e).restaurantId = d.restaurantId else f e = e) :
    (∀ e ∈ s.entries, (f e).id = e.id ∧ (f e).restaurantId = e.restaurantId) ∧
      ∀ e ∈ s.entries, ¬ Owns r s e.id → f e = e := by
  obtain ⟨c, hc, hcid, hchome⟩ := howns
  refine ⟨fun e he => ?_, fun e he hother => ?_⟩
  · have hrow := hf e
    split at hrow
    · rename_i hid
      have hec : e = c := eq_of_id_eq s.key he hc (hid.trans hcid.symm)
      have hsame : e.restaurantId = d.restaurantId :=
        Uuid.text_injective (by rw [hec, hchome, hhome])
      exact ⟨hrow.1.trans hid.symm, hrow.2.trans hsame.symm⟩
    · exact ⟨by rw [hrow], by rw [hrow]⟩
  · have hrow := hf e
    rw [if_neg] at hrow
    · exact hrow
    · rintro hid
      exact hother ⟨c, hc, hcid.trans hid.symm, hchome⟩

theorem historyOf_append {h : StatusHistory} {id : Uuid} (hhistory : s'.history = s.history ++ [h])
    (hid : h.queueEntryId ≠ id) : historyOf s' id = historyOf s id := by
  simp [historyOf, hhistory, hid]

theorem isolated_put {as : List TableAssignment} {h : StatusHistory} (howns : Owns r s d.id)
    (hhome : d.restaurantId.text = r) (hentries : s'.entries = (s.put d).entries)
    (hassignments : s'.assignments = s.assignments ++ as) (has : ∀ a ∈ as, a.queueEntryId = d.id)
    (hhistory : s'.history = s.history ++ [h]) (hh : h.queueEntryId = d.id) : Isolated r s s' := by
  have hput := put_row (f := fun e => if e.id = d.id then d else e) howns hhome fun e => by
    split <;> simp_all
  refine isolated_map hentries hput.1 hput.2 (fun id hother => ?_) fun id hother => ?_
  · have hnone : as.filter (·.queueEntryId = id) = [] := by
      refine List.filter_eq_nil_iff.mpr fun a ha hid => hother ?_
      rwa [← of_decide_eq_true hid, has a ha]
    simp [assignmentsOf, hassignments, hnone]
  · apply historyOf_append hhistory
    rintro rfl
    exact hother (hh.symm ▸ howns)

theorem isolated_insert {h : StatusHistory} (hfresh : d.id ∉ s.entries.map (·.id))
    (hhome : d.restaurantId = .ofText r) (hh : h.queueEntryId = d.id) :
    Isolated r s ((s.insert d hfresh).log h) where
  rows e he _ := List.mem_append_left _ he
  assignments _ _ _ := rfl
  history e he _ := by
    apply historyOf_append rfl
    rintro hid
    exact hfresh (hh ▸ hid ▸ List.mem_map_of_mem he)
  homes e he := ⟨e, List.mem_append_left _ he, rfl, rfl⟩
  added c hc hother := by
    obtain hc | hc := List.mem_append.mp hc
    · exact hc
    · cases List.mem_singleton.mp hc
      exact (hother hhome).elim

theorem isolated_save (howns : Owns r s d.id) (hhome : d.restaurantId.text = r) :
    Isolated r s (s.save d) := by
  have hmem : d.id ∈ s.entries.map (·.id) := by
    obtain ⟨e, he, hid, -⟩ := howns
    exact hid ▸ List.mem_map_of_mem he
  have hput := put_row (f := fun e => if e.id = d.id then { d with createdAt := e.createdAt } else e)
    howns hhome fun e => by split <;> simp_all
  have hsave : (s.save d).entries =
      s.entries.map fun e => if e.id = d.id then { d with createdAt := e.createdAt } else e := by
    rw [Store.save, dif_pos hmem]
    rfl
  have hrest : (s.save d).assignments = s.assignments ∧ (s.save d).history = s.history := by
    rw [Store.save, dif_pos hmem]
    exact ⟨rfl, rfl⟩
  exact isolated_map hsave hput.1 hput.2 (fun id _ => by rw [assignmentsOf, hrest.1]; rfl)
    fun id _ => by rw [historyOf, hrest.2]; rfl

theorem isolated_release {q : String} (howns : Owns r s (.ofText q)) :
    Isolated r s (s.releaseTableAssignments q now) := by
  refine isolated_map (f := id) (List.map_id _).symm (fun _ _ => ⟨rfl, rfl⟩) (fun _ _ _ => rfl)
    (fun id hother => ?_) fun _ _ => rfl
  have hne : id ≠ .ofText q := by
    rintro rfl
    exact hother howns
  rw [assignmentsOf, Store.releaseTableAssignments, List.filter_map, assignmentsOf]
  have hkept : ∀ a ∈ s.assignments.filter (·.queueEntryId = id),
      (if a.queueEntryId = .ofText q ∧ a.releasedAt = none then
        { a with releasedAt := some now } else a) = a := by
    intro a ha
    rw [if_neg]
    rintro ⟨hq, -⟩
    exact hne ((of_decide_eq_true (List.mem_filter.mp ha).2).symm.trans hq)
  have hsame : (s.assignments.filter ((fun a => decide (a.queueEntryId = id)) ∘ fun a =>
      if a.queueEntryId = .ofText q ∧ a.releasedAt = none then
        { a with releasedAt := some now } else a)) = s.assignments.filter (·.queueEntryId = id) := by
    apply List.filter_congr
    intro a _
    simp only [Function.comp_apply]
    split <;> rfl
  rw [hsame]
  exact (List.map_congr_left hkept).trans (List.map_id _)

theorem isolated_batch {us : List PositionUpdate} (howns : ∀ u ∈ us, Owns r s u.id) :
    Isolated r s (s.updatePositions us now) := by
  have hrestaurant : ∀ e : QueueEntry,
      (us.foldl (applyUpdate now) e).restaurantId = e.restaurantId := by
    intro e
    rw [foldl_applyUpdate_renumbered now us e]
  refine isolated_map (f := us.foldl (applyUpdate now)) rfl
    (fun e _ => ⟨foldl_applyUpdate_id _ _ _, hrestaurant e⟩) (fun e _ hother => ?_) (fun _ _ => rfl)
    fun _ _ => rfl
  apply foldl_applyUpdate_of_not_mem
  intro hid
  obtain ⟨u, hu, hid⟩ := List.mem_map.mp hid
  exact hother (hid ▸ howns u hu)

/-- The mode holds the ids that the execution has seen on rows of its restaurant.
Only their tickets may be written. -/
def tenancy (r : String) : Protocol Call Answer QueueError (Uuid → Prop) where
  allows m
    | .createWithHistory e _ => e.restaurantId = .ofText r
    | .assignTablesWithHistory e _ _ _ | .save e => m e.id ∧ e.restaurantId.text = r
    | .updateStatusWithHistory params => m params.queueEntry.id ∧ params.queueEntry.restaurantId.text = r
    | .releaseTableAssignments q => m (.ofText q)
    | .batchUpdatePositions us => ∀ u ∈ us, m u.id
    | _ => True
  expects _
    | .findById q, .ok o => ∀ e ∈ o, e.id = .ofText q
    | .findActiveEntries restaurantId, .ok l => ∀ e ∈ l, e.restaurantId = .ofText restaurantId
    | _, _ => True
  next m
    | .findById _, .ok o => fun id => m id ∨ ∃ e ∈ o, e.id = id ∧ e.restaurantId.text = r
    | .findActiveEntries _, .ok l => fun id => m id ∨ ∃ e ∈ l, e.id = id ∧ e.restaurantId.text = r
    | _, _ => m

variable {c : Call} {m m' : Uuid → Prop}

theorem written_isolated (hallows : (tenancy r).allows m c) (hm : ∀ id, m id → Owns r s id)
    (h : written c s now = .ok s') : Isolated r s s' := by
  cases c with
  | createWithHistory e changedBy =>
    obtain ⟨-, -, -, rfl⟩ := Store.createWithHistory_ok.mp h
    exact isolated_insert _ hallows rfl
  | assignTablesWithHistory e tableIds assignedBy previousStatus =>
    obtain ⟨-, rfl⟩ := Store.assignTablesWithHistory_ok.mp h
    refine isolated_put (hm _ hallows.1) hallows.2 rfl rfl (fun a ha => ?_) rfl rfl
    obtain ⟨tableId, -, rfl⟩ := List.mem_map.mp ha
    rfl
  | updateStatusWithHistory params =>
    obtain ⟨-, rfl⟩ := Store.updateStatusWithHistory_ok.mp h
    exact isolated_put (hm _ hallows.1) hallows.2 rfl (List.append_nil _).symm
      (List.forall_mem_nil _) rfl rfl
  | save e =>
    cases h
    exact isolated_save (hm _ hallows.1) hallows.2
  | releaseTableAssignments q =>
    cases h
    exact isolated_release (hm _ hallows)
  | batchUpdatePositions us =>
    obtain ⟨-, rfl⟩ := Store.batchUpdatePositions_ok.mp h
    exact isolated_batch fun u hu => hm _ (hallows u hu)
  | _ =>
    cases h
    exact isolated_refl _

theorem answers_isolated {x : Except QueueError (Answer c)} (hallows : (tenancy r).allows m c)
    (hm : ∀ id, m id → Owns r w.store id) (h : E.Answers c w x w') : Isolated r w.store w'.store := by
  obtain err | a := x
  · rw [(rejected_still h).store]
    exact isolated_refl _
  · exact written_isolated hallows hm (answers_written h)

theorem answers_seen {x : Except QueueError (Answer c)} (hm : ∀ id, m id → Owns r w.store id)
    (h : E.Answers c w x w') :
    (tenancy r).expects m c x ∧ ∀ id, (tenancy r).next m c x id → Owns r w.store id := by
  obtain err | a := x
  · cases c <;> exact ⟨trivial, hm⟩
  · obtain ⟨t, -, hp⟩ := answers_ok h
    cases c with
    | findById q =>
      obtain ⟨ha, -⟩ := hp
      cases ha
      have hfound : ∀ e ∈ w.store.findById q, e ∈ w.store.entries ∧ e.id = .ofText q :=
        fun e he => find_eq_some.mp he
      refine ⟨fun e he => (hfound e he).2, fun id hid => ?_⟩
      obtain hid | ⟨e, he, hid, hhome⟩ := hid
      · exact hm id hid
      · exact ⟨e, (hfound e he).1, hid, hhome⟩
    | findActiveEntries restaurantId =>
      obtain ⟨⟨l, hline, ha⟩, -⟩ := hp
      cases ha
      refine ⟨fun e he => ((isLine_mem hline).mp he).2.1, fun id hid => ?_⟩
      obtain hid | ⟨e, he, hid, hhome⟩ := hid
      · exact hm id hid
      · exact ⟨e, ((isLine_mem hline).mp he).1, hid, hhome⟩
    | _ => exact ⟨trivial, hm⟩

/-- Every path of the body writes tickets of the restaurant only. -/
abbrev Minds (r : String) (m : Uuid → Prop) (p : UseCase α) : Prop :=
  Follows (tenancy r) (fun _ _ => True) m p

theorem minds_isolated {p : UseCase α} {x : Except QueueError α} (hp : Minds r (fun _ => False) p)
    (h : Executes E.Answers p w x w') : Isolated r w.store w'.store := by
  obtain ⟨calls, h⟩ := h
  obtain ⟨m, -, hisolated, -⟩ := follows_traces
    (J := fun _ m v => Isolated r w.store v.store ∧ ∀ id, m id → Owns r v.store id) (l := [])
    (fun hallows hJ hanswers => by
      obtain ⟨hisolated, hm⟩ := hJ
      obtain ⟨hexpects, hseen⟩ := answers_seen hm hanswers
      have hnext := answers_isolated hallows hm hanswers
      exact ⟨hexpects, isolated_trans hisolated hnext, fun id hid => owns_isolated (hseen id hid) hnext⟩)
    hp ⟨isolated_refl _, fun _ h => h.elim⟩ h
  exact hisolated

/-- Every call but the writes. -/
abbrev Writeless (c : Call) : Prop := ¬ DatabaseWrite c

theorem writeless_allowed (hc : Writeless c) : (tenancy r).allows m c := by
  cases c <;> first | trivial | exact (hc trivial).elim

theorem reads_writeless (hc : Reads c) : Writeless c := quiet_not_write (.inl hc)

theorem allows_widen (hm : ∀ id, m id → m' id) (h : (tenancy r).allows m c) :
    (tenancy r).allows m' c := by
  cases c with
  | createWithHistory => exact h
  | assignTablesWithHistory | updateStatusWithHistory | save => exact ⟨hm _ h.1, h.2⟩
  | releaseTableAssignments => exact hm _ h
  | batchUpdatePositions => exact fun u hu => hm _ (h u hu)
  | _ => trivial

theorem next_widen {x : Except QueueError (Answer c)} (hm : ∀ id, m id → m' id) {id : Uuid}
    (h : (tenancy r).next m c x id) : (tenancy r).next m' c x id := by
  obtain err | a := x
  · cases c <;> exact hm id h
  · cases c with
    | findById | findActiveEntries => exact h.imp_left (hm id)
    | _ => exact hm id h

theorem next_grows {x : Except QueueError (Answer c)} {id : Uuid} (h : m id) :
    (tenancy r).next m c x id := by
  obtain err | a := x
  · cases c <;> exact h
  · cases c with
    | findById | findActiveEntries => exact .inl h
    | _ => exact h

theorem minds_widen {p : UseCase α} (hm : ∀ id, m id → m' id) (hp : Minds r m p) : Minds r m' p := by
  induction p generalizing m m' with
  | done a => trivial
  | reject err => trivial
  | await c k ih => exact ⟨allows_widen hm hp.1, fun x hx => ih x (fun _ => next_widen hm) (hp.2 x hx)⟩

theorem minds_after {p : UseCase α} {f : α → UseCase β} {R : α → Prop} (hp : Issues Writeless p)
    (hy : Yields R p) (hf : ∀ a, R a → Minds r m (f a)) : Minds r m (p >>= f) := by
  have hstay : Follows (tenancy r) (fun m' _ => ∀ id, m id → m' id) m p :=
    follows_within hp (fun m' c hm hc => ⟨writeless_allowed hc, fun x _ id h => next_grows (hm id h)⟩)
      fun _ h => h
  exact follows_bind (follows_yields hstay hy)
    (fun m' a h => minds_widen h.1 (hf a (h.2 a rfl))) fun _ _ _ => trivial

theorem minds_then {p : UseCase α} {f : α → UseCase β} (hp : Issues Writeless p)
    (hf : ∀ a, Minds r m (f a)) : Minds r m (p >>= f) :=
  minds_after hp (yields_any p) fun a _ => hf a

theorem minds_bind {p : UseCase α} {f : α → UseCase β} (hp : Minds r m p)
    (hf : ∀ m' a, Minds r m' (f a)) : Minds r m (p >>= f) :=
  follows_bind hp (fun m' a _ => hf m' a) fun _ _ _ => trivial

theorem minds_quiet {p : UseCase α} (hp : Issues Quiet p) : Minds r m p :=
  follows_mono (fun _ _ _ => trivial) (follows_within (I := fun _ => True)
    (issues_mono (fun _ => quiet_not_write) hp)
    (fun _ _ _ hc => ⟨writeless_allowed hc, fun _ _ => trivial⟩) trivial)

theorem minds_write {f : Answer c → UseCase α} (hc : DatabaseWrite c)
    (hallows : (tenancy r).allows m c) (hf : ∀ a, Minds r m (f a)) : Minds r m (ask c >>= f) := by
  refine ⟨hallows, fun x _ => ?_⟩
  have hnext : (tenancy r).next m c x = m := by
    cases c <;> first | exact hc.elim | rfl
  rw [hnext]
  obtain err | a := x
  · trivial
  · exact hf a

theorem minds_findOwned {q : String} {f : QueueEntry → UseCase α}
    (hf : ∀ e, e.id = .ofText q → e.restaurantId.text = r → Minds r (· = e.id) (f e)) :
    Minds r m (findOwned r q >>= f) := by
  refine ⟨trivial, fun x hx => ?_⟩
  obtain err | o := x
  · trivial
  cases o with
  | none => trivial
  | some e =>
    change Minds r _ ((if _ then _ else _) >>= f)
    split
    · trivial
    · rename_i hhome
      refine minds_widen ?_ (hf e (hx e rfl) (not_not.mp hhome))
      rintro _ rfl
      exact .inr ⟨e, rfl, rfl, not_not.mp hhome⟩

theorem minds_line {f : List QueueEntry → UseCase α} (hr : (Uuid.ofText r).text = r)
    (hf : ∀ l : List QueueEntry, Minds r (fun id => m id ∨ id ∈ l.map (·.id)) (f l)) :
    Minds r m (ask (.findActiveEntries r) >>= f) := by
  refine ⟨trivial, fun x hx => ?_⟩
  obtain err | l := x
  · trivial
  refine minds_widen (fun id hid => hid.imp_right fun hid => ?_) (hf l)
  obtain ⟨e, he, hid⟩ := List.mem_map.mp hid
  exact ⟨e, he, hid, hx e he ▸ hr⟩

theorem minds_batch {us : List PositionUpdate} {f : Unit → UseCase α} (hus : ∀ u ∈ us, m u.id)
    (hf : Minds r m (f ())) : Minds r m (batchUpdatePositions us >>= f) := by
  rw [batchUpdatePositions]
  split
  · exact hf
  · exact minds_write trivial hus fun _ => hf

theorem minds_recalculate (hr : (Uuid.ofText r).text = r) : Minds r m (recalculate r) := by
  apply minds_line hr
  intro l
  change Minds r _ (if _ then _ else _)
  split
  · trivial
  apply minds_then (issues_mono (fun _ => reads_writeless) (issues_predictEtas _))
  intro etas
  change Minds r _ (if _ then _ else _)
  split
  · trivial
  refine minds_batch (fun u hu => .inr ?_) (minds_bind (minds_quiet (issues_report _ _)) fun _ _ => trivial)
  exact (recalculation_ids l etas).subset (List.mem_map_of_mem hu)

theorem minds_closeRanks {q : String} (hr : (Uuid.ofText r).text = r) :
    Minds r m (closeRanks q r) :=
  minds_bind (minds_quiet (issues_removeLiveEntry q)) fun _ _ => minds_recalculate hr

theorem minds_registerQueue (input : RegisterQueueInput) :
    Minds input.restaurantId m (registerQueue input) := by
  refine minds_then (issues_mono (fun _ hc => reads_writeless (admission_reads hc))
    (issues_checkAdmission input)) fun _ => ?_
  refine minds_then (issues_call (reads_writeless trivial)) fun _ =>
    minds_then (issues_call (reads_writeless trivial)) fun _ =>
    minds_then (issues_call (reads_writeless trivial)) fun _ =>
    minds_then (issues_call (reads_writeless trivial)) fun _ => minds_write trivial rfl fun _ => ?_
  exact minds_bind (minds_quiet (issues_mono (fun _ => announcement_quiet) (issues_announce _ _ _ _)))
    fun _ _ => trivial

theorem canonical (he : e.restaurantId.text = r) : (Uuid.ofText r).text = r := by
  rw [← he, Uuid.ofText_text]

theorem minds_seatParty (input : SeatPartyInput) : Minds input.restaurantId m (seatParty input) := by
  apply minds_findOwned
  intro found _ hhome
  refine minds_after (issues_mono (fun _ => reads_writeless) (issues_seat found)) (yields_seat found)
    fun e he => ?_
  obtain ⟨-, a, b, rfl⟩ := he
  refine minds_then (issues_call id) fun _ => minds_write trivial ⟨rfl, hhome⟩ fun _ => ?_
  exact minds_bind (minds_closeRanks (canonical hhome)) fun _ _ => minds_quiet (issues_notifySeated _ _)

theorem minds_assignTable (input : AssignTablesInput) :
    Minds input.restaurantId m (assignTable input) := by
  apply minds_findOwned
  intro found _ hhome
  change Minds _ _ (if _ then _ else _)
  split
  · trivial
  apply minds_then (issues_mono (fun _ => reads_writeless) (issues_peopleAheadAtJoin _ _))
  intro _
  refine minds_after (issues_mono (fun _ => reads_writeless) (issues_seat found)) (yields_seat found)
    fun e he => ?_
  obtain ⟨-, a, b, rfl⟩ := he
  refine minds_then (issues_call id) fun _ => minds_write trivial ⟨rfl, hhome⟩ fun _ => ?_
  exact minds_quiet (issues_afterAssigning _ _ _ _)

theorem minds_ringCustomer (input : RingCustomerInput) :
    Minds input.restaurantId m (ringCustomer input) := by
  apply minds_findOwned
  intro found _ hhome
  refine minds_after (issues_mono (fun _ => reads_writeless) (issues_ring found)) (yields_ring found)
    fun e he => ?_
  obtain ⟨-, a, b, rfl⟩ := he
  exact minds_write trivial ⟨rfl, hhome⟩ fun _ => minds_quiet (issues_notifyRung _ _)

theorem minds_releaseAssigned {input : CancelQueueEntryInput} {n : Nat} {f : Unit → UseCase α}
    (hq : m (.ofText input.queueEntryId)) (hf : Minds r m (f ())) :
    Minds r m (releaseAssigned input n >>= f) := by
  refine ⟨trivial, fun x _ => ?_⟩
  obtain err | l := x
  · trivial
  change Minds r m ((if _ then _ else _) >>= f)
  split
  · rw [bind_assoc]
    exact minds_then (issues_call id) fun _ => minds_write trivial hq fun _ => hf
  · exact hf

theorem minds_cancelQueueEntry (input : CancelQueueEntryInput) :
    Minds input.restaurantId m (cancelQueueEntry input) := by
  apply minds_findOwned
  intro found hid hhome
  refine minds_after (issues_mono (fun _ => reads_writeless) (issues_cancel found _))
    (yields_cancel found _) fun e he => ?_
  obtain ⟨-, a, b, rfl⟩ := he
  have hrest : ∀ persisted, Minds input.restaurantId (· = found.id) (do
      let _ ← closeRanks input.queueEntryId input.restaurantId
      notifyCancelled input persisted) := fun _ =>
    minds_bind (minds_closeRanks (canonical hhome)) fun _ _ => minds_quiet (issues_notifyCancelled _ _)
  exact minds_releaseAssigned hid.symm (minds_write trivial ⟨rfl, hhome⟩ hrest)

theorem minds_skipOut {input : SkipPartyInput} {found : QueueEntry} (hid : m found.id)
    (hhome : found.restaurantId.text = input.restaurantId) :
    Minds input.restaurantId m (skipOut input found) := by
  refine minds_after (issues_mono (fun _ => reads_writeless) (issues_skip found)) (yields_skip found)
    fun e he => ?_
  obtain ⟨-, a, rfl⟩ := he
  refine minds_write trivial ⟨hid, hhome⟩ fun _ => ?_
  exact minds_bind (minds_closeRanks (canonical hhome)) fun _ _ =>
    minds_quiet (issues_notifySkipped _ _ _ _)

theorem minds_reorder {input : SkipPartyInput} {found : QueueEntry} {l : List QueueEntry} {i k : Nat}
    (hid : m found.id) (hhome : found.restaurantId.text = input.restaurantId) (hi : i < l.length)
    (hl : ∀ id ∈ l.map (·.id), m id) : Minds input.restaurantId m (reorder input found k l i) := by
  have hbatch : ∀ u ∈ reorderUpdates (splice l i (targetIndex l i k)), m u.id := by
    intro u hu
    have hmem : u.id ∈ (reorderUpdates (splice l i (targetIndex l i k))).map (·.id) :=
      List.mem_map_of_mem hu
    rw [reorderUpdates_ids] at hmem
    exact hl _ (((splice_perm (targetIndex_lt hi k)).map (·.id)).subset hmem)
  refine minds_after (issues_mono (fun _ => reads_writeless) (issues_updatePosition found _))
    (yields_updatePosition found _) fun e he => minds_batch hbatch ?_
  have howned : m e.id ∧ e.restaurantId.text = input.restaurantId := by
    obtain rfl | ⟨a, rfl⟩ := he <;> exact ⟨hid, hhome⟩
  refine minds_write trivial howned fun _ => ?_
  exact minds_bind (minds_recalculate (canonical hhome)) fun _ _ =>
    minds_quiet (issues_notifySkipped _ _ _ _)

theorem minds_skipParty (input : SkipPartyInput) : Minds input.restaurantId m (skipParty input) := by
  apply minds_findOwned
  intro found _ hhome
  apply minds_then (issues_mono (fun _ => reads_writeless) (issues_requireWaiting found))
  intro _
  split
  swap
  · exact minds_skipOut rfl hhome
  apply minds_line (canonical hhome)
  intro l
  split
  · rename_i i hi
    obtain ⟨hlt, -⟩ := List.findIdx?_eq_some_iff_getElem.mp hi
    exact minds_reorder (.inl rfl) hhome hlt fun id hid => .inr hid
  · exact minds_skipOut (.inl rfl) hhome

theorem execute_isolated {op : Operation} {x : Except QueueError Outcome}
    (h : Executes E.Answers op.execute w x w') : Isolated op.restaurantId w.store w'.store := by
  refine minds_isolated ?_ h
  cases op with
  | register input => exact minds_bind (minds_registerQueue input) fun _ _ => trivial
  | seatParty input => exact minds_bind (minds_seatParty input) fun _ _ => trivial
  | assignTable input => exact minds_bind (minds_assignTable input) fun _ _ => trivial
  | skipParty input => exact minds_bind (minds_skipParty input) fun _ _ => trivial
  | cancelQueueEntry input => exact minds_bind (minds_cancelQueueEntry input) fun _ _ => trivial
  | ringCustomer input => exact minds_bind (minds_ringCustomer input) fun _ _ => trivial

end SpotQueue.Tenancy
