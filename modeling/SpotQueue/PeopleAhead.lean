import SpotQueue.Simulation

namespace SpotQueue.PeopleAhead

open SpotQueue.Entity SpotQueue.Repository SpotQueue.Environment SpotQueue.Recalculator
open SpotQueue.UseCases SpotQueue.Frame SpotQueue.Line SpotQueue.Seating SpotQueue.Registration
open SpotQueue.StoreChanges SpotQueue.RowChanges SpotQueue.SequentialRun SpotQueue.Simulation
open SpotQueue.Awaits.AsyncProgram SpotQueue.Awaits.AsyncProtocol SpotQueue.Awaits.LabelledRun

variable {E : Env} {op : Operation} {D : Time → Prop} {s s' : Store} {e d : QueueEntry}
  {r : Uuid} {joinedAt c c' : Time}

/-- What a row has noted by the time `c` about when its party came and went. -/
structure Dated (c : Time) (e : QueueEntry) : Prop where
  joined : e.joinedAt ≤ c
  unseated : e.status = .waiting → e.seatedAt = none
  seated : e.status = .seated → ∃ t ∈ e.seatedAt, t ≤ c
  ended : e.status = .cancelled ∨ e.status = .noShow ∨ e.status = .skipped → e.updatedAt ≤ c

theorem dated_mono (hc : c ≤ c') (h : Dated c e) : Dated c' e := by
  refine ⟨h.joined.trans hc, h.unseated, fun hs => ?_, fun hs => (h.ended hs).trans hc⟩
  obtain ⟨t, ht, htc⟩ := h.seated hs
  exact ⟨t, ht, htc.trans hc⟩

theorem dated_row (hrow : RowChange D e d) (hc : c ≤ c') (hD : ∀ a, D a → a ≤ c')
    (h : Dated c e) : Dated c' d := by
  cases hrow with
  | kept => exact dated_mono hc h
  | moved hw hd =>
    rw [hd]
    exact ⟨h.joined.trans hc, h.unseated, fun hs => absurd (hw.symm.trans hs) nofun,
      fun hs => by simp [hw] at hs⟩
  | left hw hd =>
    cases hd with
    | seated ha _ =>
      exact ⟨h.joined.trans hc, nofun, fun _ => ⟨_, rfl, hD _ ha⟩, by simp [QueueEntry.seated]⟩
    | skipped ha => exact ⟨h.joined.trans hc, nofun, nofun, fun _ => hD _ ha⟩
    | cancelled hs hb =>
      refine ⟨h.joined.trans hc, ?_, ?_, fun _ => hD _ hb⟩
      · obtain rfl | rfl := hs <;> nofun
      · obtain rfl | rfl := hs <;> nofun

/-- Whatever is written after `joinedAt` leaves the reconstruction of that moment alone. -/
theorem aheadAtJoin_row (hrow : RowChange D e d) (hdated : Dated c e) (hD : ∀ a, D a → joinedAt < a) :
    AheadAtJoin r joinedAt d ↔ AheadAtJoin r joinedAt e := by
  cases hrow with
  | kept => exact Iff.rfl
  | moved hw hd =>
    rw [hd]
    simp [AheadAtJoin, hw]
  | left hw hd =>
    have hnone := hdated.unseated hw
    cases hd with
    | seated ha _ => simp [AheadAtJoin, QueueEntry.seated, hw, hnone, hD _ ha]
    | skipped ha => simp [AheadAtJoin, QueueEntry.skipped, hw, hnone, hD _ ha]
    | cancelled hs hb => simp [AheadAtJoin, QueueEntry.cancelled, hw, hnone, hD _ hb]

theorem rowChange_partySize (hrow : RowChange D e d) : d.partySize = e.partySize := by
  cases hrow with
  | kept => rfl
  | moved _ hd => rw [hd]
  | left _ hd => cases hd <;> rfl

theorem sumPartySize_filter_map {P : QueueEntry → Prop} [DecidablePred P] {l : List QueueEntry}
    {f : QueueEntry → QueueEntry} (h : ∀ e ∈ l, (P (f e) ↔ P e) ∧ (f e).partySize = e.partySize) :
    sumPartySize ((l.map f).filter P) = sumPartySize (l.filter P) := by
  induction l with
  | nil => rfl
  | cons e l ih =>
    have hl := ih fun d hd => h d (List.mem_cons_of_mem e hd)
    obtain ⟨hP, hsize⟩ := h e List.mem_cons_self
    simp only [sumPartySize] at hl ⊢
    by_cases he : P e
    · simp [he, hP.mpr he, hsize, hl]
    · simp [he, mt hP.mp he, hl]

theorem countPeopleAheadAtJoin_change {q : String} (h : Change E op D s s')
    (hdated : ∀ e ∈ s.entries, Dated c e) (hD : ∀ a, D a → joinedAt < a) :
    s'.countPeopleAheadAtJoin q joinedAt = s.countPeopleAheadAtJoin q joinedAt := by
  obtain ⟨f, hf, hrow⟩ := change_rows h
  rw [Store.countPeopleAheadAtJoin, hf]
  exact sumPartySize_filter_map fun e he =>
    ⟨aheadAtJoin_row (hrow e he).1 (hdated e he) hD, rowChange_partySize (hrow e he).1⟩

theorem dated_change (h : Change E op D s s') (hc : c ≤ c') (hD : ∀ a, D a → a ≤ c')
    (hdated : ∀ e ∈ s.entries, Dated c e) : ∀ e ∈ s'.entries, Dated c' e := by
  obtain ⟨f, hf, hrow⟩ := change_rows h
  intro d hd
  rw [hf] at hd
  obtain ⟨e, he, rfl⟩ := List.mem_map.mp hd
  exact dated_row (hrow e he).1 hc hD (hdated e he)

theorem changes_keep {q : String} (h : Changes E op D s s') (hc : c ≤ c')
    (hD : ∀ a, D a → c < a ∧ a ≤ c') (hdated : ∀ e ∈ s.entries, Dated c e) :
    (∀ e ∈ s'.entries, Dated c' e) ∧ ∀ joinedAt ≤ c,
      s'.countPeopleAheadAtJoin q joinedAt = s.countPeopleAheadAtJoin q joinedAt := by
  induction h with
  | refl => exact ⟨fun e he => dated_mono hc (hdated e he), fun _ _ => rfl⟩
  | tail _ hlast ih =>
    obtain ⟨hd, hcount⟩ := ih
    refine ⟨dated_change hlast le_rfl (fun a ha => (hD a ha).2) hd, fun joinedAt hj => ?_⟩
    rw [countPeopleAheadAtJoin_change hlast hd fun a ha => hj.trans_lt (hD a ha).1, hcount _ hj]

/-- At a time after everything noted so far, the people ahead are the people waiting. -/
theorem countPeopleAheadAtJoin_now {q : String} (hdated : ∀ e ∈ s.entries, Dated c e)
    (hc : c < joinedAt) :
    s.countPeopleAheadAtJoin q joinedAt = sumPartySize (s.waiting (.ofText q)) := by
  rw [Store.countPeopleAheadAtJoin, Store.waiting]
  congr 1
  apply List.filter_congr
  intro e he
  have h := hdated e he
  have hjoined := h.joined.trans_lt hc
  rw [decide_eq_decide]
  rw [AheadAtJoin]
  cases hs : e.status with
  | waiting => simp [hjoined, h.unseated hs]
  | seated =>
    obtain ⟨t, ht, htc⟩ := h.seated hs
    have hpast : ¬ joinedAt < t := (htc.trans hc.le).not_gt
    simp [Option.mem_def.mp ht, hpast]
  | skipped | cancelled | noShow =>
    have hpast : e.updatedAt ≤ joinedAt := (h.ended (by simp [hs])).trans hc.le
    simp [hpast]

theorem countPeopleAheadAtJoin_joined {q changedBy : String} {now : Time}
    {hfresh : e.id ∉ s.entries.map (·.id)} (hj : joinedAt ≤ e.joinedAt) :
    (joinedStore s e hfresh changedBy now).countPeopleAheadAtJoin q joinedAt =
      s.countPeopleAheadAtJoin q joinedAt := by
  have hnot : ¬ AheadAtJoin (.ofText q) joinedAt e := fun h => hj.not_gt h.2.1
  simp [Store.countPeopleAheadAtJoin, joinedStore, List.filter_append, hnot]

/-- The totals that getRegistrationMetrics answered during an operation. -/
def measured (calls : Calls) : List Nat :=
  calls.filterMap fun ev => match ev with
    | ⟨_, .getRegistrationMetrics _, .ok metrics, _⟩ => some metrics.totalPeopleAhead
    | _ => none

/-- The totals that were passed to predictEta during an operation. -/
def served (calls : Calls) : List Nat :=
  calls.filterMap fun ev => match ev.call with
    | .predictEta _ totalPeopleAhead _ => some totalPeopleAhead
    | _ => none

theorem measured_nil {Q : Call → Prop} {calls : Calls} (h : ∀ ev ∈ calls, Q ev.call)
    (hQ : ∀ q, ¬ Q (.getRegistrationMetrics q)) : measured calls = [] := by
  rw [measured, List.filterMap_eq_nil_iff]
  intro ev hev
  have hq := h ev hev
  split
  · exact (hQ _ hq).elim
  · rfl

theorem served_nil {Q : Call → Prop} {calls : Calls} (h : ∀ ev ∈ calls, Q ev.call)
    (hQ : ∀ q a n, ¬ Q (.predictEta q a n)) : served calls = [] := by
  rw [served, List.filterMap_eq_nil_iff]
  intro ev hev
  have hq := h ev hev
  split
  · rename_i hcall
    exact (hQ _ _ _ (hcall ▸ hq)).elim
  · rfl

/-- What a registration that was stored has asked for and how it stands. -/
structure Joined (w : World) (l : Executed) (u : World) (e : QueueEntry) : Prop where
  entries : u.store.entries = w.store.entries ++ [e]
  measured : measured l.calls = [sumPartySize (w.store.waiting e.restaurantId)]
  served : served l.calls = [sumPartySize (w.store.waiting e.restaurantId)]
  waiting : e.status = .waiting
  unseated : e.seatedAt = none

theorem registered_joined {input : RegisterQueueInput} {x : Except QueueError RegisterQueueOutput}
    {w u : World} {l : Executed} (h : RegisterOutcome E input w l.calls x u) :
    u.store = w.store ∨ ∃ e, Joined w l u e ∧ During E w u e.joinedAt ∧
      ∃ hfresh changedBy now, u.store = joinedStore w.store e hfresh changedBy now := by
  obtain ⟨op, calls, result⟩ := l
  dsimp only at h
  cases h with
  | refused hstill => exact .inl hstill.store
  | @registered pre post day now minutes id metrics e _ _ _ _ _ v _ hpre hmetrics _ he hnow hfresh _
      _ hv hrest =>
    have hstore := (announce_calm ⟨_, hrest⟩).store.trans hv.store
    have hpost := issues_traces (issues_announce _ _ _ _) hrest
    have htotal : metrics.totalPeopleAhead = sumPartySize (w.store.waiting e.restaurantId) := by
      rw [hmetrics, he]
      rfl
    refine .inr ⟨e, ⟨?_, ?_, ?_, he ▸ rfl, he ▸ rfl⟩, ?_, hfresh, _, _, hstore⟩
    · rw [hstore, joinedStore, Store.log_entries, Store.insert_entries]
    · have h₁ := measured_nil hpre fun q h => h
      have h₂ := measured_nil hpost fun q h => h
      rw [measured] at h₁ h₂ ⊢
      simp [h₁, h₂, htotal]
    · have h₁ := served_nil hpre fun q a n h => h
      have h₂ := served_nil hpost fun q a n h => h
      rw [served] at h₁ h₂ ⊢
      simp [h₁, h₂, htotal]
    · have hjoined : e.joinedAt = now := he ▸ rfl
      exact hjoined ▸ during_widen .refl hnow (executes_later ⟨_, hrest⟩)

/-- Every registration of the past still reads off the total it was served. -/
structure Reconstructs (tr : History) (w : World) : Prop where
  dated : ∀ e ∈ w.store.entries, Dated w.clock e
  counted : ∀ step ∈ tr, ∀ e ∈ step.after.store.entries,
    e.id ∉ step.before.store.entries.map (·.id) → e.joinedAt ≤ w.clock ∧
      measured step.label.calls = [w.store.countPeopleAheadAtJoin e.restaurantId.text e.joinedAt] ∧
      served step.label.calls = [w.store.countPeopleAheadAtJoin e.restaurantId.text e.joinedAt]

variable {w w' : World} {l : Executed} {tr : History} {start : Time}

theorem reconstructs_still (h : Reconstructs tr w) (hstore : w'.store = w.store)
    (hclock : w.clock ≤ w'.clock) : Reconstructs (tr ++ [⟨w, l, w'⟩]) w' := by
  refine ⟨fun e he => dated_mono hclock (h.dated e (hstore ▸ he)), fun step hstep e he hfresh => ?_⟩
  obtain hstep | hstep := List.mem_append.mp hstep
  · obtain ⟨hj, hm, hs⟩ := h.counted step hstep e he hfresh
    exact ⟨hj.trans hclock, hstore ▸ hm, hstore ▸ hs⟩
  · obtain rfl := List.mem_singleton.mp hstep
    exact (hfresh (hstore ▸ List.mem_map_of_mem he)).elim

theorem reconstructs_changed {t : Time} (htick : ∀ a b, E.tick a b → a ≤ b) (hpause : w.clock < t)
    (h : Reconstructs tr w) (hlater : Later E t w'.clock)
    (hchanges : Changes E op (During E (w.at t) w') w.store w'.store) :
    Reconstructs (tr ++ [⟨w, l, w'⟩]) w' := by
  have hclock : w.clock ≤ w'.clock := hpause.le.trans (later_le htick hlater)
  have hD : ∀ a, During E (w.at t) w' a → w.clock < a ∧ a ≤ w'.clock :=
    fun a ha => ⟨hpause.trans_le (later_le htick ha.1), later_le htick ha.2⟩
  have hkeep := fun q => changes_keep (q := q) hchanges hclock hD h.dated
  refine ⟨(hkeep "").1, fun step hstep e he hfresh => ?_⟩
  obtain hstep | hstep := List.mem_append.mp hstep
  · obtain ⟨hj, hm, hs⟩ := h.counted step hstep e he hfresh
    rw [← (hkeep _).2 _ hj] at hm hs
    exact ⟨hj.trans hclock, hm, hs⟩
  · obtain rfl := List.mem_singleton.mp hstep
    exact (hfresh (changes_ids hchanges ▸ List.mem_map_of_mem he)).elim

theorem reconstructs_joined {hfresh : e.id ∉ w.store.entries.map (·.id)} {changedBy : String}
    {now : Time} (h : Reconstructs tr w) (hnow : w.clock < e.joinedAt ∧ e.joinedAt ≤ w'.clock)
    (hjoined : Joined w l w' e) (hstore : w'.store = joinedStore w.store e hfresh changedBy now) :
    Reconstructs (tr ++ [⟨w, l, w'⟩]) w' := by
  have hclock : w.clock ≤ w'.clock := hnow.1.le.trans hnow.2
  refine ⟨fun d hd => ?_, fun step hstep d hd hnew => ?_⟩
  · rw [hjoined.entries, List.mem_append, List.mem_singleton] at hd
    obtain hd | rfl := hd
    · exact dated_mono hclock (h.dated d hd)
    · refine ⟨hnow.2, fun _ => hjoined.unseated, ?_, ?_⟩ <;> simp [hjoined.waiting]
  obtain hstep | hstep := List.mem_append.mp hstep
  · obtain ⟨hj, hm, hs⟩ := h.counted step hstep d hd hnew
    rw [hstore, countPeopleAheadAtJoin_joined (hj.trans hnow.1.le)]
    exact ⟨hj.trans hclock, hm, hs⟩
  · obtain rfl := List.mem_singleton.mp hstep
    rw [hjoined.entries, List.mem_append, List.mem_singleton] at hd
    obtain hd | rfl := hd
    · exact (hnew (List.mem_map_of_mem hd)).elim
    have hcount := countPeopleAheadAtJoin_now (q := d.restaurantId.text) h.dated hnow.1
    rw [Uuid.ofText_text] at hcount
    rw [hstore, countPeopleAheadAtJoin_joined le_rfl, hcount]
    exact ⟨hnow.2, hjoined.measured, hjoined.served⟩

theorem run_reconstructs (htick : ∀ a b, E.tick a b → a ≤ b) (hpause : ∀ a b, E.pause a b → a < b)
    (hrun : Run (Sequential E) (World.empty start) tr w) : Reconstructs tr w := by
  refine run_invariant (I := Reconstructs) (G := fun _ => True)
    ⟨by simp [World.empty, Store.empty], by simp⟩ ?_ hrun fun _ _ => trivial
  rintro tr w l w' hrun h hstep -
  cases run_outcome hrun hstep with
  | changed _ ht hlater hchanges =>
    exact reconstructs_changed htick (hpause _ _ ht) h hlater hchanges
  | @joined input x t u _ ht hlater hout _ hend =>
    have hstore : w'.store = u.store := by rw [hend, respond_store]
    have hclock : w'.clock = u.clock := by rw [hend, respond_clock]
    obtain hsame | ⟨e, hjoined, hnow, hfresh, changedBy, now, hu⟩ := registered_joined hout
    · apply reconstructs_still h (hstore.trans hsame)
      exact hclock ▸ (hpause _ _ ht).le.trans (later_le htick hlater)
    · have hjoined : Joined w l w' e := ⟨hstore ▸ hjoined.entries, hjoined.measured, hjoined.served,
        hjoined.waiting, hjoined.unseated⟩
      refine reconstructs_joined h ⟨?_, ?_⟩ hjoined (hstore.trans hu)
      · exact (hpause _ _ ht).trans_le (later_le htick hnow.1)
      · exact hclock ▸ later_le htick hnow.2

/-- In every state a run has come to, what countPeopleAheadAtJoin tells about any
ticket is the number its estimate was predicted from when it was registered. -/
theorem countPeopleAheadAtJoin_served (htick : ∀ a b, E.tick a b → a ≤ b)
    (hpause : ∀ a b, E.pause a b → a < b) (hrun : Run (Sequential E) (World.empty start) tr w)
    {step : Transition World Executed} (hstep : step ∈ tr) (he : e ∈ step.after.store.entries)
    (hnew : e.id ∉ step.before.store.entries.map (·.id)) :
    measured step.label.calls = [w.store.countPeopleAheadAtJoin e.restaurantId.text e.joinedAt] ∧
      served step.label.calls = [w.store.countPeopleAheadAtJoin e.restaurantId.text e.joinedAt] :=
  ((run_reconstructs htick hpause hrun).counted step hstep e he hnew).2

theorem countPeopleAheadAtJoin_served_second :
    ∃ step ∈ smooth.history (.empty 0) [walkIn "r" "1", walkIn "r" "2"],
      ∃ e ∈ step.after.store.entries, e.phone = "2" ∧ served step.label.calls =
        [(smooth.final (.empty 0) [walkIn "r" "1", walkIn "r" "2"]).store.countPeopleAheadAtJoin
          e.restaurantId.text e.joinedAt] := by
  have hrow : (smooth.row (.empty 0) [walkIn "r" "1", walkIn "r" "2"] "19").isSome := by
    decide +kernel
  obtain ⟨e, he⟩ := Option.isSome_iff_exists.mp hrow
  obtain ⟨hmem, hid⟩ := find_eq_some.mp he
  have hnew : Uuid.ofText "19" ∉
      (smooth.final (.empty 0) [walkIn "r" "1"]).store.entries.map (·.id) := by decide +kernel
  have hphone : (smooth.row (.empty 0) [walkIn "r" "1", walkIn "r" "2"] "19").map (·.phone) =
      some "2" := by decide +kernel
  refine ⟨_, List.mem_cons_of_mem _ List.mem_cons_self, e, hmem, ?_, ?_⟩
  · rw [he] at hphone
    exact Option.some.inj hphone
  · exact (countPeopleAheadAtJoin_served (env_tick smooth) (env_pause smooth)
      (smooth.history_run _ _) (List.mem_cons_of_mem _ List.mem_cons_self) hmem (hid ▸ hnew)).2

end SpotQueue.PeopleAhead
