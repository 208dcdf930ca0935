import SpotQueue.Departure
import SpotQueue.Stewardship

namespace SpotQueue.DurableRows

open SpotQueue.Entity SpotQueue.Repository SpotQueue.Environment SpotQueue.UseCases SpotQueue.Frame
open SpotQueue.Guards SpotQueue.Line SpotQueue.RowWrites SpotQueue.Stewardship
open SpotQueue.Simulation
open SpotQueue.Awaits.AsyncProgram SpotQueue.Awaits.AsyncProtocol SpotQueue.Awaits.LabelledRun
open SpotQueue.Awaits.AsyncPool

section lists

variable {α : Type} {R : α → α → Prop} {l k l' : List α}

/-- Every row keeps its place, changed as `R` allows; rows may be added at the end. -/
def Grown (R : α → α → Prop) (l l' : List α) : Prop :=
  ∀ (i : Nat) (a : α), l[i]? = some a → ∃ b, l'[i]? = some b ∧ R a b

theorem grown_refl (hR : ∀ a, R a a) (l : List α) : Grown R l l := fun _ a h => ⟨a, h, hR a⟩

theorem grown_trans (hR : ∀ {a b c}, R a b → R b c → R a c) (h : Grown R l k) (h' : Grown R k l') :
    Grown R l l' := by
  intro i a ha
  obtain ⟨b, hb, hab⟩ := h i a ha
  obtain ⟨c, hc, hbc⟩ := h' i b hb
  exact ⟨c, hc, hR hab hbc⟩

theorem grown_map {f : α → α} (hf : ∀ a ∈ l, R a (f a)) : Grown R l (l.map f) := fun i a ha =>
  ⟨f a, by rw [List.getElem?_map, ha, Option.map_some], hf a (List.mem_of_getElem? ha)⟩

theorem grown_append (hR : ∀ a, R a a) (l k : List α) : Grown R l (l ++ k) := fun i a ha =>
  ⟨a, by rw [List.getElem?_append_left (List.getElem?_eq_some_iff.mp ha).1, ha], hR a⟩

theorem grown_mem {a : α} (h : Grown R l l') (ha : a ∈ l) : ∃ b ∈ l', R a b := by
  obtain ⟨i, hi⟩ := List.mem_iff_getElem?.mp ha
  obtain ⟨b, hb, hab⟩ := h i a hi
  exact ⟨b, List.mem_of_getElem? hb, hab⟩

end lists

variable {ι : Type} [DecidableEq ι] {E : Env} {ops : ι → Operation} {w w' : World}
  {tr : Interleaving ι} {q : Underway ι} {r : String} {s t s' : Store} {c : Call} {now : Time}
  {e d : QueueEntry} {m : QueueEntry → Prop} {id : Uuid}

/-- A table assignment ends at most once, and nothing else of it is ever changed. -/
def Ends (a b : TableAssignment) : Prop :=
  b = { a with releasedAt := b.releasedAt } ∧ ∀ t ∈ a.releasedAt, b.releasedAt = some t

theorem ends_refl (a : TableAssignment) : Ends a a := ⟨rfl, fun _ h => h⟩

theorem ends_trans {a b c : TableAssignment} (h : Ends a b) (h' : Ends b c) : Ends a c :=
  ⟨h'.1.trans (by rw [h.1]), fun t ht => h'.2 t (h.2 t ht)⟩

/-- What the database keeps for good: every party with what it was registered with,
every assignment, every line of the history. -/
structure Durable (s s' : Store) : Prop where
  rows : Grown SameParty s.entries s'.entries
  assignments : Grown Ends s.assignments s'.assignments
  history : Grown Eq s.history s'.history

theorem durable_refl (s : Store) : Durable s s :=
  ⟨grown_refl sameParty_refl _, grown_refl ends_refl _, grown_refl (fun _ => rfl) _⟩

theorem durable_trans (h : Durable s t) (h' : Durable t s') : Durable s s' :=
  ⟨grown_trans sameParty_trans h.rows h'.rows, grown_trans ends_trans h.assignments h'.assignments,
    grown_trans (fun h h' => h.trans h') h.history h'.history⟩

/-- The party of the row is stored, and belongs to the restaurant. -/
def Stored (r : String) (s : Store) (d : QueueEntry) : Prop :=
  d.restaurantId = .ofText r ∧ ∃ e ∈ s.entries, SameParty d e

theorem stored_durable (h : Stored r s d) (hs : Durable s s') : Stored r s' d := by
  obtain ⟨hr, e, he, hde⟩ := h
  obtain ⟨f, hf, hef⟩ := grown_mem hs.rows he
  exact ⟨hr, f, hf, sameParty_trans hde hef⟩

theorem stored_id (h : Stored r s d) : d.id ∈ s.entries.map (·.id) := by
  obtain ⟨-, e, he, hde⟩ := h
  exact hde.id_eq ▸ List.mem_map_of_mem he

/-- A row written for a stored party is that party's row. -/
theorem written_party (hd : Stored r s d) (he : SameParty d e) :
    e.id ∈ s.entries.map (·.id) ∧ ∀ c ∈ s.entries, c.id = e.id → SameParty c e := by
  refine ⟨he.id_eq ▸ stored_id hd, fun c hc hid => ?_⟩
  obtain ⟨-, f, hf, hdf⟩ := hd
  obtain rfl : c = f := eq_of_id_eq s.key hc hf (hid.trans (he.id_eq.trans hdf.id_eq.symm))
  exact sameParty_trans (sameParty_symm hdf) he

theorem put_rows (hparty : ∀ c ∈ s.entries, c.id = e.id → SameParty c e) :
    Grown SameParty s.entries (s.put e).entries := by
  refine grown_map fun c hc => ?_
  split
  · rename_i hid
    exact hparty c hc hid
  · exact sameParty_refl c

theorem save_rows (hparty : ∀ c ∈ s.entries, c.id = e.id → SameParty c e) :
    Grown SameParty s.entries (s.save e).entries := by
  rw [Store.save]
  split
  · refine grown_map fun c hc => ?_
    split
    · rename_i hid
      rw [hparty c hc hid]
      rfl
    · exact sameParty_refl c
  · exact grown_append sameParty_refl _ _

theorem renumbered_party (h : Renumbered e d) : SameParty e d := by
  rw [h]
  rfl

theorem release_ends (s : Store) (queueEntryId : String) (now : Time) :
    Grown Ends s.assignments (s.releaseTableAssignments queueEntryId now).assignments := by
  refine grown_map fun a _ => ?_
  split
  · rename_i hactive
    refine ⟨rfl, fun t ht => ?_⟩
    rw [hactive.2] at ht
    cases ht
  · exact ends_refl a

theorem written_durable (hallows : (stewardship r).allows m c) (hm : ∀ d, m d → Stored r s d)
    (h : written c s now = .ok s') : Durable s s' := by
  cases c with
  | createWithHistory e changedBy =>
    obtain ⟨-, -, -, rfl⟩ := Store.createWithHistory_ok.mp h
    exact ⟨grown_append sameParty_refl _ _, grown_refl ends_refl _, grown_append (fun _ => rfl) _ _⟩
  | assignTablesWithHistory e tableIds assignedBy previousStatus =>
    obtain ⟨d, hd, he⟩ := hallows
    obtain ⟨-, rfl⟩ := Store.assignTablesWithHistory_ok.mp h
    exact ⟨put_rows (written_party (hm d hd) he).2, grown_append ends_refl _ _,
      grown_append (fun _ => rfl) _ _⟩
  | updateStatusWithHistory params =>
    obtain ⟨d, hd, he⟩ := hallows
    obtain ⟨-, rfl⟩ := Store.updateStatusWithHistory_ok.mp h
    exact ⟨put_rows (written_party (hm d hd) he).2, grown_refl ends_refl _,
      grown_append (fun _ => rfl) _ _⟩
  | save e =>
    obtain ⟨d, hd, he⟩ := hallows
    cases h
    exact ⟨save_rows (written_party (hm d hd) he).2, by simpa using grown_refl ends_refl _,
      by simpa using grown_refl (fun _ => rfl) _⟩
  | releaseTableAssignments queueEntryId =>
    cases h
    exact ⟨grown_refl sameParty_refl _, release_ends s queueEntryId now, grown_refl (fun _ => rfl) _⟩
  | batchUpdatePositions us =>
    obtain ⟨-, rfl⟩ := Store.batchUpdatePositions_ok.mp h
    exact ⟨grown_map fun e _ => renumbered_party (foldl_applyUpdate_renumbered now us e),
      grown_refl ends_refl _, grown_refl (fun _ => rfl) _⟩
  | _ =>
    cases h
    exact durable_refl _

theorem answers_durable {x : Except QueueError (Answer c)} (hallows : (stewardship r).allows m c)
    (hm : ∀ d, m d → Stored r w.store d) (h : E.Answers c w x w') : Durable w.store w'.store := by
  obtain err | a := x
  · rw [(rejected_still h).store]
    exact durable_refl _
  · exact written_durable hallows hm (answers_written h)

/-- The answers are those the protocol expects, and every row given is stored. -/
theorem answers_stored {x : Except QueueError (Answer c)} (hallows : (stewardship r).allows m c)
    (hm : ∀ d, m d → Stored r w.store d) (h : E.Answers c w x w') :
    (stewardship r).expects m c x ∧ ∀ d, (stewardship r).next m c x d → Stored r w'.store d := by
  have hkept : ∀ d, m d → Stored r w'.store d :=
    fun d hd => stored_durable (hm d hd) (answers_durable hallows hm h)
  obtain err | a := x
  · cases c <;> exact ⟨trivial, hkept⟩
  · obtain ⟨t, -, hp⟩ := answers_ok h
    cases c with
    | findById q =>
      obtain ⟨ha, rfl⟩ := hp
      cases ha
      have hfound : ∀ e ∈ w.store.findById q, e ∈ w.store.entries ∧ e.id = .ofText q :=
        fun e he => find_eq_some.mp he
      refine ⟨fun e he => (hfound e he).2, fun d hd => ?_⟩
      obtain hd | ⟨hd, hhome⟩ := hd
      · exact hkept d hd
      · exact ⟨home_ofText hhome, d, (hfound d hd).1, sameParty_refl d⟩
    | findActiveEntries restaurantId =>
      obtain ⟨⟨l, hline, ha⟩, rfl⟩ := hp
      cases ha
      refine ⟨fun e he => ((isLine_mem hline).mp he).2.1, fun d hd => ?_⟩
      obtain hd | ⟨hd, hhome⟩ := hd
      · exact hkept d hd
      · exact ⟨hhome, d, ((isLine_mem hline).mp hd).1, sameParty_refl d⟩
    | createWithHistory e changedBy =>
      obtain ⟨ha, s, hs, hw⟩ := transacts_ok hp
      obtain ⟨-, -, _, hjoined⟩ := Store.createWithHistory_ok.mp hs
      refine ⟨ha, fun d hd => ?_⟩
      obtain hd | rfl := hd
      · exact hkept d hd
      · refine ⟨hallows, d, ?_, sameParty_refl d⟩
        rw [hw, hjoined]
        exact List.mem_append_right _ List.mem_cons_self
    | assignTablesWithHistory | updateStatusWithHistory => exact ⟨(transacts_ok hp).1, hkept⟩
    | _ => exact ⟨trivial, hkept⟩

/-- Every line of the history and every assignment is one of a stored ticket. -/
structure Referenced (s : Store) : Prop where
  history : ∀ h ∈ s.history, h.queueEntryId ∈ s.entries.map (·.id)
  assignments : ∀ a ∈ s.assignments, a.queueEntryId ∈ s.entries.map (·.id)

theorem durable_ids (h : Durable s s') (hid : id ∈ s.entries.map (·.id)) :
    id ∈ s'.entries.map (·.id) := by
  obtain ⟨e, he, rfl⟩ := List.mem_map.mp hid
  obtain ⟨d, hd, hed⟩ := grown_mem h.rows he
  exact hed.id_eq ▸ List.mem_map_of_mem hd

theorem referenced_append {as : List TableAssignment} {hs : List StatusHistory} (h : Durable s s')
    (has : ∀ a ∈ as, a.queueEntryId ∈ s'.entries.map (·.id))
    (hhs : ∀ row ∈ hs, row.queueEntryId ∈ s'.entries.map (·.id))
    (hassignments : ∀ a ∈ s'.assignments, a ∈ as ∨ ∃ b ∈ s.assignments, a.queueEntryId = b.queueEntryId)
    (hhistory : s'.history = s.history ++ hs) (href : Referenced s) : Referenced s' := by
  constructor
  · intro row hrow
    rw [hhistory, List.mem_append] at hrow
    exact hrow.elim (fun hrow => durable_ids h (href.history row hrow)) (hhs row)
  · intro a ha
    obtain ha | ⟨b, hb, hid⟩ := hassignments a ha
    · exact has a ha
    · exact hid ▸ durable_ids h (href.assignments b hb)

theorem written_referenced (hallows : (stewardship r).allows m c) (hm : ∀ d, m d → Stored r s d)
    (h : written c s now = .ok s') (href : Referenced s) : Referenced s' := by
  have hdurable := written_durable hallows hm h
  have hsame : ∀ a ∈ s.assignments, a ∈ [] ∨ ∃ b ∈ s.assignments, a.queueEntryId = b.queueEntryId :=
    fun a ha => .inr ⟨a, ha, rfl⟩
  have hparty : ∀ {d e}, m d → SameParty d e → e.id ∈ s'.entries.map (·.id) :=
    fun hd he => durable_ids hdurable (written_party (hm _ hd) he).1
  cases c with
  | createWithHistory e changedBy =>
    obtain ⟨-, -, hfresh, rfl⟩ := Store.createWithHistory_ok.mp h
    refine referenced_append hdurable (List.forall_mem_nil _) (fun row hrow => ?_) hsame rfl href
    cases List.mem_singleton.mp hrow
    exact List.mem_map_of_mem (List.mem_append_right _ List.mem_cons_self)
  | assignTablesWithHistory e tableIds assignedBy previousStatus =>
    obtain ⟨d, hd, he⟩ := hallows
    obtain ⟨-, rfl⟩ := Store.assignTablesWithHistory_ok.mp h
    have hassigned : ∀ a ∈ newAssignments e tableIds assignedBy now,
        a.queueEntryId ∈ (s.put e).entries.map (·.id) := by
      intro a ha
      obtain ⟨tableId, -, rfl⟩ := List.mem_map.mp ha
      exact hparty hd he
    refine referenced_append hdurable hassigned (fun row hrow => ?_) (fun a ha => ?_) rfl href
    · cases List.mem_singleton.mp hrow
      exact hparty hd he
    · exact (List.mem_append.mp ha).symm.imp_right fun ha => ⟨a, ha, rfl⟩
  | updateStatusWithHistory params =>
    obtain ⟨d, hd, he⟩ := hallows
    obtain ⟨-, rfl⟩ := Store.updateStatusWithHistory_ok.mp h
    refine referenced_append hdurable (List.forall_mem_nil _) (fun row hrow => ?_) hsame rfl href
    cases List.mem_singleton.mp hrow
    exact hparty hd he
  | save e =>
    cases h
    exact referenced_append hdurable (List.forall_mem_nil _) (List.forall_mem_nil _)
      (by simpa using hsame) (by simp) href
  | releaseTableAssignments queueEntryId =>
    cases h
    refine referenced_append hdurable (List.forall_mem_nil _) (List.forall_mem_nil _) (fun a ha => ?_)
      (List.append_nil _).symm href
    obtain ⟨b, hb, rfl⟩ := List.mem_map.mp ha
    exact .inr ⟨b, hb, by split <;> rfl⟩
  | batchUpdatePositions us =>
    obtain ⟨-, rfl⟩ := Store.batchUpdatePositions_ok.mp h
    exact referenced_append hdurable (List.forall_mem_nil _) (List.forall_mem_nil _) hsame
      (List.append_nil _).symm href
  | _ =>
    cases h
    exact href

theorem answers_referenced {x : Except QueueError (Answer c)} (hallows : (stewardship r).allows m c)
    (hm : ∀ d, m d → Stored r w.store d) (h : E.Answers c w x w') (href : Referenced w.store) :
    Referenced w'.store := by
  obtain err | a := x
  · exact (rejected_still h).store ▸ href
  · exact written_referenced hallows hm (answers_written h) href

theorem put_ids (s : Store) (e : QueueEntry) :
    (s.put e).entries.map (·.id) = s.entries.map (·.id) := by
  rw [Store.put, mapEntries_ids]

/-- Only the insert of a registration adds to the rows. -/
theorem written_ids (hallows : (stewardship r).allows m c) (hm : ∀ d, m d → Stored r s d)
    (hc : ∀ e changedBy, c ≠ .createWithHistory e changedBy) (h : written c s now = .ok s') :
    s'.entries.map (·.id) = s.entries.map (·.id) := by
  cases c with
  | createWithHistory e changedBy => exact absurd rfl (hc e changedBy)
  | assignTablesWithHistory e tableIds assignedBy previousStatus =>
    obtain ⟨-, rfl⟩ := Store.assignTablesWithHistory_ok.mp h
    exact put_ids s e
  | updateStatusWithHistory params =>
    obtain ⟨-, rfl⟩ := Store.updateStatusWithHistory_ok.mp h
    exact put_ids s _
  | save e =>
    obtain ⟨d, hd, he⟩ := hallows
    cases h
    rw [Store.save, dif_pos (written_party (hm d hd) he).1]
    rw [mapEntries_ids]
  | batchUpdatePositions us =>
    obtain ⟨-, rfl⟩ := Store.batchUpdatePositions_ok.mp h
    exact updatePositions_ids s us now
  | _ =>
    cases h
    rfl

/-- A row met after a call was there before it, or the call has inserted it. -/
theorem answers_rows {x : Except QueueError (Answer c)} (hallows : (stewardship r).allows m c)
    (hm : ∀ d, m d → Stored r w.store d) (h : E.Answers c w x w') (he : e ∈ w'.store.entries) :
    (∃ d ∈ w.store.entries, SameParty d e) ∨ ∃ changedBy, c = .createWithHistory e changedBy := by
  have hdurable := answers_durable hallows hm h
  have hkept : e.id ∈ w.store.entries.map (·.id) → ∃ d ∈ w.store.entries, SameParty d e := by
    intro hid
    obtain ⟨d, hd, hid⟩ := List.mem_map.mp hid
    obtain ⟨b, hb, hdb⟩ := grown_mem hdurable.rows hd
    obtain rfl : b = e := eq_of_id_eq w'.store.key hb he (hdb.id_eq.trans hid)
    exact ⟨d, hd, hdb⟩
  obtain err | a := x
  · rw [(rejected_still h).store] at he
    exact .inl ⟨e, he, sameParty_refl e⟩
  have hwritten := answers_written h
  by_cases hc : ∀ e changedBy, c ≠ .createWithHistory e changedBy
  · refine .inl (hkept ?_)
    rw [← written_ids hallows hm hc hwritten]
    exact List.mem_map_of_mem he
  · push Not at hc
    obtain ⟨d, changedBy, rfl⟩ := hc
    obtain ⟨-, -, hfresh, hw⟩ := Store.createWithHistory_ok.mp hwritten
    rw [hw, Store.log_entries, Store.insert_entries, List.mem_append, List.mem_singleton] at he
    obtain he | rfl := he
    · exact .inl ⟨e, he, sameParty_refl e⟩
    · exact .inr ⟨changedBy, rfl⟩

/-- The step was allowed by rows its execution knew, each that of a stored party. -/
def Stewarded (ops : ι → Operation) (step : Transition (Underway ι) (Step ι Call Answer QueueError)) :
    Prop :=
  ∃ m, (stewardship (ops step.label.body).restaurantId).allows m step.label.call ∧
    ∀ d, m d → Stored (ops step.label.body).restaurantId step.before.state.store d

theorem run_stewarded (hrun : Run (Interleaves E.Answers) (together ops w) tr q) :
    ∀ step ∈ tr, Stewarded ops step := by
  suffices h : ∃ seen : ι → QueueEntry → Prop,
      (∀ i, Stewards (ops i).restaurantId (seen i) (q.bodies i)) ∧
      (∀ i d, seen i d → Stored (ops i).restaurantId q.state.store d) ∧ ∀ step ∈ tr, Stewarded ops step
    from h.choose_spec.2.2
  refine interleaves_indexed (G := fun _ => True)
    (J := fun tr (seen : ι → QueueEntry → Prop) v =>
      (∀ i d, seen i d → Stored (ops i).restaurantId v.store d) ∧ ∀ step ∈ tr, Stewarded ops step)
    (fun i => stewards_execute (ops i)) ⟨fun _ _ h => h.elim, List.forall_mem_nil _⟩ ?_ hrun
    fun _ _ => trivial
  rintro tr seen q i c x q' hallows ⟨hseen, hsteps⟩ hanswers -
  obtain ⟨hexpects, hnext⟩ := answers_stored hallows (hseen i) hanswers
  have hdurable := answers_durable hallows (hseen i) hanswers
  refine ⟨hexpects, fun j d hd => ?_, ?_⟩
  · by_cases hj : j = i
    · subst hj
      rw [Function.update_self] at hd
      exact hnext d hd
    · rw [Function.update_of_ne hj] at hd
      exact stored_durable (hseen j d hd) hdurable
  · have hstep : Stewarded ops ⟨q, ⟨i, c, x⟩, q'⟩ := ⟨seen i, hallows, hseen i⟩
    simpa [or_imp, forall_and] using ⟨hsteps, hstep⟩

theorem step_durable {l : Step ι Call Answer QueueError} {q' : Underway ι}
    (h : Interleaves E.Answers q l q') (hstep : Stewarded ops ⟨q, l, q'⟩) :
    Durable q.state.store q'.state.store ∧ (Referenced q.state.store → Referenced q'.state.store) := by
  obtain ⟨m, hallows, hm⟩ := hstep
  obtain ⟨i, -, hc⟩ := h
  exact ⟨answers_durable hallows hm hc, answers_referenced hallows hm hc⟩

end SpotQueue.DurableRows
