import SpotQueue.StoreWrites
import SpotQueue.Simulation

namespace SpotQueue.WellFormedRows

open SpotQueue.Entity SpotQueue.Repository SpotQueue.Environment SpotQueue.UseCases SpotQueue.Line
open SpotQueue.Seating SpotQueue.Leaving SpotQueue.Registration SpotQueue.Recalculation
open SpotQueue.SequentialRun SpotQueue.StoreWrites SpotQueue.Simulation
open SpotQueue.Awaits.LabelledRun

variable {E : Env} {w w' : World} {op : Operation} {s s' : Store} {e d : QueueEntry}

/-- The nullable columns of a row agree with its status and its count of rings. -/
structure WellFormed (e : QueueEntry) : Prop where
  placed : e.position.isSome ↔ e.status = .waiting
  positive : ∀ p ∈ e.position, 1 ≤ p
  seated : e.seatedAt.isSome ↔ e.status = .seated
  cancelled : e.cancelledAt.isSome ↔ e.status = .cancelled ∨ e.status = .noShow
  rung : e.lastRingedAt.isSome ↔ 0 < e.ringCount
  walkIn : e.registrationType = .walkIn → e.ringCount = 0

/-- The columns a registration writes for good. -/
structure AsRegistered (e d : QueueEntry) : Prop where
  joinedAt : d.joinedAt = e.joinedAt
  createdAt : d.createdAt = e.createdAt
  atJoin : d.estimatedWaitMinutesAtJoin = e.estimatedWaitMinutesAtJoin

/-- What a write may make of one stored row. -/
inductive RowWrite (e : QueueEntry) : QueueEntry → Prop
  | kept : RowWrite e e
  | placed (hw : e.status = .waiting) (p : Nat) (estimate : Option Nat) (updatedAt : Time) :
      RowWrite e { e with
        position := some (p + 1), estimatedWaitMinutes := estimate, updatedAt := updatedAt }
  | seated (hw : e.status = .waiting) (a b : Time) : RowWrite e (e.seated a b)
  | status {d : QueueEntry} (hw : e.status = .waiting) (hd : StatusRow e d) : RowWrite e d
  | rung (hw : e.status = .waiting) (honline : e.registrationType = .online) (a b : Time) :
      RowWrite e (e.rung a b)

theorem wellFormed_create {props : CreateQueueEntryProps} {id : Uuid} {now : Time}
    (hposition : 1 ≤ props.position) : WellFormed (create props id now) where
  placed := by simp [create]
  positive p hp := by cases hp; exact hposition
  seated := by simp [create]
  cancelled := by simp [create]
  rung := by simp [create]
  walkIn _ := rfl

theorem wellFormed_status (he : WellFormed e) (hw : e.status = .waiting) (hd : StatusRow e d) :
    WellFormed d := by
  obtain ⟨hplaced, hpositive, hseated, hcancelled, hrung, hwalkIn⟩ := he
  rw [hw] at hplaced hseated hcancelled
  cases hd with
  | skipped a => exact ⟨by simp [QueueEntry.skipped], nofun, by simpa [QueueEntry.skipped] using hseated,
      by simpa [QueueEntry.skipped] using hcancelled, hrung, hwalkIn⟩
  | cancelled hs a b =>
    obtain rfl | rfl := hs
    all_goals
      exact ⟨by simp [QueueEntry.cancelled], nofun, by simpa [QueueEntry.cancelled] using hseated,
        by simp [QueueEntry.cancelled], hrung, hwalkIn⟩
  | shifted a => exact ⟨by simpa [hw] using hplaced, hpositive, by simpa [hw] using hseated,
      by simpa [hw] using hcancelled, hrung, hwalkIn⟩

theorem wellFormed_write (he : WellFormed e) (hwrite : RowWrite e d) : WellFormed d := by
  cases hwrite with
  | kept => exact he
  | placed hw p estimate t =>
    exact ⟨by simp [hw], by simp, he.seated, he.cancelled, he.rung, he.walkIn⟩
  | seated hw a b =>
    have hcancelled := he.cancelled
    rw [hw] at hcancelled
    exact ⟨by simp [QueueEntry.seated], nofun, by simp [QueueEntry.seated],
      by simpa [QueueEntry.seated] using hcancelled, he.rung, he.walkIn⟩
  | status hw hd => exact wellFormed_status he hw hd
  | rung hw honline a b =>
    exact ⟨he.placed, he.positive, he.seated, he.cancelled, by simp [QueueEntry.rung],
      fun hwalkIn => by cases honline.symm.trans hwalkIn⟩

theorem asRegistered_write (hwrite : RowWrite e d) : AsRegistered e d := by
  cases hwrite with
  | status _ hd => cases hd <;> exact ⟨rfl, rfl, rfl⟩
  | _ => exact ⟨rfl, rfl, rfl⟩

/-- Every write goes over the stored rows in place or adds one that was just created. -/
theorem write_rows (hwrite : Write op s s') :
    (∃ f : QueueEntry → QueueEntry, s'.entries = s.entries.map f ∧
        ∀ e ∈ s.entries, (f e).id = e.id ∧ RowWrite e (f e)) ∨
      ∃ props id now, 1 ≤ props.position ∧ id ∉ s.entries.map (·.id) ∧
        s'.entries = s.entries ++ [create props id now] := by
  have hput : ∀ {e d}, e ∈ s.entries → d.id = e.id → RowWrite e d → s'.entries = (s.put d).entries →
      ∃ f : QueueEntry → QueueEntry, s'.entries = s.entries.map f ∧
        ∀ e ∈ s.entries, (f e).id = e.id ∧ RowWrite e (f e) := by
    intro e d hmem hid hrow hentries
    refine ⟨_, hentries, fun c hc => ?_⟩
    split
    · rename_i hcd
      obtain rfl := eq_of_id_eq s.key hc hmem (hcd.trans hid)
      exact ⟨hid, hrow⟩
    · exact ⟨rfl, .kept⟩
  cases hwrite with
  | joined hposition hfresh => exact .inr ⟨_, _, _, hposition, hfresh, rfl⟩
  | @seated e a b _ _ _ _ hmem hw =>
    exact .inl (hput (d := e.seated a b) hmem rfl (.seated hw a b) rfl)
  | status hmem hw hd =>
    have hid : ∀ {e d}, StatusRow e d → d.id = e.id := by
      intro e d hd
      cases hd <;> rfl
    exact .inl (hput hmem (hid hd) (.status hw hd) rfl)
  | @rung e a b hmem hw honline =>
    exact .inl (hput (d := e.rung a b) hmem rfl (.rung hw honline a b) rfl)
  | renumbered hline hlen =>
    refine .inl ⟨_, rfl, fun c hc => ?_⟩
    obtain ⟨-, hkept⟩ | ⟨j, m, t, hj, -, hmoved⟩ := renumber_cases hline hlen hc
    · exact ⟨by rw [hkept], by rw [hkept]; exact .kept⟩
    · have hw := ((isLine_mem hline).mp (List.mem_of_getElem? hj)).2.2
      exact ⟨by rw [hmoved], by rw [hmoved]; exact .placed hw j _ _⟩
  | reordered hline hi =>
    refine .inl ⟨_, rfl, fun c hc => ?_⟩
    obtain ⟨-, hkept⟩ | ⟨j, hj, hmoved⟩ := reorder_cases hline (shiftedLine_perm hi _) hc
    · exact ⟨by rw [hkept], by rw [hkept]; exact .kept⟩
    · have hmem := (shiftedLine_perm hi _).mem_iff.mp (List.mem_of_getElem? hj)
      have hw := ((isLine_mem hline).mp hmem).2.2
      exact ⟨by rw [hmoved], by rw [hmoved]; exact .placed hw j _ _⟩

theorem wellFormed_rows (hwrite : Write op s s') (hs : ∀ e ∈ s.entries, WellFormed e) :
    ∀ d ∈ s'.entries, WellFormed d := by
  intro d hd
  obtain ⟨f, hentries, hf⟩ | ⟨props, id, now, hposition, -, hentries⟩ := write_rows hwrite
  · rw [hentries] at hd
    obtain ⟨e, he, rfl⟩ := List.mem_map.mp hd
    exact wellFormed_write (hs e he) (hf e he).2
  · rw [hentries, List.mem_append, List.mem_singleton] at hd
    obtain hd | rfl := hd
    · exact hs d hd
    · exact wellFormed_create hposition

theorem asRegistered_refl (e : QueueEntry) : AsRegistered e e := ⟨rfl, rfl, rfl⟩

theorem asRegistered_trans {f : QueueEntry} (h₁ : AsRegistered e d) (h₂ : AsRegistered d f) :
    AsRegistered e f :=
  ⟨h₂.joinedAt.trans h₁.joinedAt, h₂.createdAt.trans h₁.createdAt, h₂.atJoin.trans h₁.atJoin⟩

/-- No row is lost, and those that were there keep what their registration wrote. -/
structure Carried (s s' : Store) : Prop where
  stored : ∀ id ∈ s.entries.map (·.id), id ∈ s'.entries.map (·.id)
  rows : ∀ d ∈ s'.entries, d.id ∈ s.entries.map (·.id) →
    ∃ e ∈ s.entries, e.id = d.id ∧ AsRegistered e d

theorem carried_refl (s : Store) : Carried s s :=
  ⟨fun _ => id, fun d hd _ => ⟨d, hd, rfl, asRegistered_refl d⟩⟩

theorem carried_trans {s'' : Store} (h₁ : Carried s s') (h₂ : Carried s' s'') : Carried s s'' where
  stored id hid := h₂.stored id (h₁.stored id hid)
  rows d hd hid := by
    obtain ⟨e, he, hed, hsame⟩ := h₂.rows d hd (h₁.stored _ hid)
    obtain ⟨f, hf, hfe, hsame'⟩ := h₁.rows e he (hed ▸ hid)
    exact ⟨f, hf, hfe.trans hed, asRegistered_trans hsame' hsame⟩

theorem carried_write (hwrite : Write op s s') : Carried s s' := by
  obtain ⟨f, hentries, hf⟩ | ⟨props, id, now, -, hfresh, hentries⟩ := write_rows hwrite
  · constructor
    · intro id hid
      obtain ⟨e, he, rfl⟩ := List.mem_map.mp hid
      rw [hentries, List.map_map]
      exact List.mem_map.mpr ⟨e, he, (hf e he).1⟩
    · intro d hd _
      rw [hentries] at hd
      obtain ⟨e, he, rfl⟩ := List.mem_map.mp hd
      exact ⟨e, he, (hf e he).1.symm, asRegistered_write (hf e he).2⟩
  · constructor
    · intro id hid
      rw [hentries, List.map_append, List.mem_append]
      exact .inl hid
    · intro d hd hid
      rw [hentries, List.mem_append, List.mem_singleton] at hd
      obtain hd | rfl := hd
      · exact ⟨d, hd, rfl, asRegistered_refl d⟩
      · exact (hfresh hid).elim

theorem carried_writes (h : Writes op s s') : Carried s s' := by
  induction h with
  | refl => exact carried_refl s
  | tail _ hlast ih => exact carried_trans ih (carried_write hlast)

/-- The row is that of a ticket one of the operations has made, with what it wrote then. -/
def StillRegistered (tr : History) (d : QueueEntry) : Prop :=
  ∃ step ∈ tr, ∃ e ∈ step.after.store.entries, e.id = d.id ∧
    e.id ∉ step.before.store.entries.map (·.id) ∧ AsRegistered e d

theorem stillRegistered_step {tr : History} {l : Executed} (hcarried : Carried w.store w'.store)
    (htr : ∀ e ∈ w.store.entries, StillRegistered tr e) (hd : d ∈ w'.store.entries) :
    StillRegistered (tr ++ [⟨w, l, w'⟩]) d := by
  by_cases hid : d.id ∈ w.store.entries.map (·.id)
  · obtain ⟨e, he, hed, hsame⟩ := hcarried.rows d hd hid
    obtain ⟨step, hstep, e₀, he₀, hid₀, hnew, hsame₀⟩ := htr e he
    exact ⟨step, List.mem_append_left _ hstep, e₀, he₀, hid₀.trans hed, hnew,
      asRegistered_trans hsame₀ hsame⟩
  · exact ⟨⟨w, l, w'⟩, by simp, d, hd, rfl, hid, asRegistered_refl d⟩

/-- After every operation of a sequential run, completed or aborted, every stored row
is well formed and keeps what its registration wrote. -/
theorem run_wellFormed {start : Time} {tr : History}
    (hrun : Run (Sequential E) (World.empty start) tr w) :
    ∀ d ∈ w.store.entries, WellFormed d ∧ StillRegistered tr d := by
  refine run_invariant (I := fun tr w => ∀ d ∈ w.store.entries, WellFormed d ∧ StillRegistered tr d)
    (G := fun _ => True) (List.forall_mem_nil _) (fun {tr w l w'} hrun hI hstep _ => ?_) hrun
    fun _ _ => trivial
  have hwrites := sequential_writes (run_held hrun) hstep
  have hwell : ∀ d ∈ w'.store.entries, WellFormed d :=
    writes_preserve (I := fun s => ∀ e ∈ s.entries, WellFormed e) wellFormed_rows hwrites
      fun e he => (hI e he).1
  exact fun d hd => ⟨hwell d hd,
    stillRegistered_step (carried_writes hwrites) (fun e he => (hI e he).2) hd⟩

theorem run_wellFormed_letPast :
    (smooth.final (.empty 0) letPast).store.entries.length = 2 ∧
      ∀ d ∈ (smooth.final (.empty 0) letPast).store.entries,
        WellFormed d ∧ StillRegistered (smooth.history (.empty 0) letPast) d :=
  ⟨by decide +kernel, run_wellFormed (smooth.history_run (.empty 0) letPast)⟩

end SpotQueue.WellFormedRows
