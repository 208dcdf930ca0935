import SpotQueue.Simulation

namespace SpotQueue.WaitDuration

open SpotQueue.Entity SpotQueue.Repository SpotQueue.Environment SpotQueue.UseCases SpotQueue.Frame
open SpotQueue.Line SpotQueue.Seating SpotQueue.Registration SpotQueue.StoreChanges SpotQueue.RowChanges
open SpotQueue.SequentialRun SpotQueue.Simulation
open SpotQueue.Awaits.AsyncProgram SpotQueue.Awaits.AsyncProtocol SpotQueue.Awaits.LabelledRun

variable {E : Env} {w v u w' : World} {s s' s'' : Store} {D : Time → Prop} {e d f : QueueEntry}
  {c c' start : Time} {tr post : History} {l : Executed}

/-- The end of the interval of a party that waits no longer. -/
def ended (e : QueueEntry) : Time :=
  match e.status with
  | .seated => e.seatedAt.getD e.updatedAt
  | _ => e.updatedAt

theorem waitDuration_waiting (h : e.status = .waiting) (t : Time) :
    e.calculateWaitDurationMinutes t = (t - e.joinedAt) / MS_PER_MINUTE := by
  simp [QueueEntry.calculateWaitDurationMinutes, h]

theorem waitDuration_ended (h : e.status ≠ .waiting) (t : Time) :
    e.calculateWaitDurationMinutes t = (ended e - e.joinedAt) / MS_PER_MINUTE := by
  unfold QueueEntry.calculateWaitDurationMinutes ended
  cases hs : e.status with
  | waiting => exact (h hs).elim
  | _ => rfl

/-- The formula of the source over the integers, where the difference may be negative. -/
theorem waitDuration_max (e : QueueEntry) (t : Time) :
    (e.calculateWaitDurationMinutes t : Int) =
      max 0 (((if e.status = .waiting then (t : Int) else ended e) - e.joinedAt) / MS_PER_MINUTE) := by
  have hminutes : ∀ a b : Time,
      ((a - b) / MS_PER_MINUTE : Nat) = max 0 (((a : Int) - b) / MS_PER_MINUTE) := by
    intro a b
    rw [MS_PER_MINUTE]
    omega
  by_cases hw : e.status = .waiting
  · rw [if_pos hw, waitDuration_waiting hw, hminutes]
  · rw [if_neg hw, waitDuration_ended hw, hminutes]

/-- What has become of a row since the time `c`. -/
structure Since (c : Time) (e d : QueueEntry) : Prop where
  id : d.id = e.id
  joinedAt : d.joinedAt = e.joinedAt
  frozen : e.status ≠ .waiting → d = e
  later : e.status = .waiting → d.status ≠ .waiting → c ≤ ended d

theorem since_refl (c : Time) (e : QueueEntry) : Since c e e :=
  ⟨rfl, rfl, fun _ => rfl, fun hw hn => (hn hw).elim⟩

theorem since_trans (h : Since c e d) (h' : Since c d f) : Since c e f := by
  refine ⟨h'.id.trans h.id, h'.joinedAt.trans h.joinedAt, fun hn => ?_, fun hw hn => ?_⟩
  · obtain rfl := h.frozen hn
    exact h'.frozen hn
  · by_cases hd : d.status = .waiting
    · exact h'.later hd hn
    · rw [h'.frozen hd]
      exact h.later hw hd

theorem rowChange_since (h : RowChange D e d) (hD : ∀ a, D a → c ≤ a) : Since c e d := by
  cases h with
  | kept => exact since_refl c e
  | moved hw hd =>
    rw [hd]
    exact ⟨rfl, rfl, fun hn => (hn hw).elim, fun _ hn => (hn hw).elim⟩
  | left hw hd =>
    cases hd with
    | seated ha _ => exact ⟨rfl, rfl, fun hn => (hn hw).elim, fun _ _ => hD _ ha⟩
    | skipped ha => exact ⟨rfl, rfl, fun hn => (hn hw).elim, fun _ _ => hD _ ha⟩
    | cancelled hs hb =>
      refine ⟨rfl, rfl, fun hn => (hn hw).elim, fun _ _ => ?_⟩
      obtain rfl | rfl := hs <;> exact hD _ hb

def RowsSince (c : Time) (s s' : Store) : Prop := ∀ e ∈ s.entries, ∃ d ∈ s'.entries, Since c e d

theorem rowsSince_refl (c : Time) (s : Store) : RowsSince c s s := fun e he => ⟨e, he, since_refl c e⟩

theorem rowsSince_trans (h : RowsSince c s s') (h' : RowsSince c s' s'') : RowsSince c s s'' := by
  intro e he
  obtain ⟨d, hd, hed⟩ := h e he
  obtain ⟨f, hf, hdf⟩ := h' d hd
  exact ⟨f, hf, since_trans hed hdf⟩

theorem changes_since {op : Operation} (h : Changes E op D s s') (hD : ∀ a, D a → c ≤ a) :
    RowsSince c s s' := by
  induction h with
  | refl => exact rowsSince_refl c s
  | tail _ hlast ih =>
    obtain ⟨f, hf, hrow⟩ := change_rows hlast
    refine rowsSince_trans ih fun e he => ⟨f e, ?_, rowChange_since (hrow e he).1 hD⟩
    rw [hf]
    exact List.mem_map_of_mem he

theorem registered_since {input : RegisterQueueInput} {calls : Calls}
    {x : Except QueueError RegisterQueueOutput} (h : RegisterOutcome E input w calls x w') :
    RowsSince c w.store w'.store := by
  cases h with
  | refused hstill =>
    rw [hstill.store]
    exact rowsSince_refl c _
  | registered _ _ _ _ _ hfresh _ _ hv hrest =>
    rw [(announce_calm ⟨_, hrest⟩).store, hv.store]
    exact fun e he => ⟨e, List.mem_append_left _ he, since_refl c e⟩

/-- One operation writes no time but its own. -/
theorem sequential_since (htick : ∀ a b, E.tick a b → a ≤ b) (hpause : ∀ a b, E.pause a b → a ≤ b)
    (hheld : Held w.store) (hc : c ≤ w.clock) (h : Sequential E w l w') :
    RowsSince c w.store w'.store ∧ w.clock ≤ w'.clock := by
  cases sequential_outcome hheld h with
  | changed _ ht hlater hchanges =>
    have hstart := hpause _ _ ht
    exact ⟨changes_since hchanges fun a ha => (hc.trans hstart).trans (later_le htick ha.1),
      hstart.trans (later_le htick hlater)⟩
  | @joined input x t u _ ht hlater hout _ hend =>
    have hrows : RowsSince c (w.at t).store u.store := registered_since hout
    rw [hend, respond_store, respond_clock]
    exact ⟨hrows, (hpause _ _ ht).trans (later_le htick hlater)⟩

theorem run_since (htick : ∀ a b, E.tick a b → a ≤ b) (hpause : ∀ a b, E.pause a b → a ≤ b)
    (hheld : Held v.store) (hrun : Run (Sequential E) v post w) :
    Held w.store ∧ v.clock ≤ w.clock ∧ RowsSince v.clock v.store w.store := by
  refine run_preserves (I := fun w => Held w.store ∧ v.clock ≤ w.clock ∧ RowsSince v.clock v.store w.store)
    ⟨hheld, le_rfl, rowsSince_refl _ _⟩ ?_ hrun
  rintro s l t ⟨hs, hclock, hsince⟩ hstep
  obtain ⟨hrows, hlater⟩ := sequential_since htick hpause hs hclock hstep
  exact ⟨held_step hs hstep, hclock.trans hlater, rowsSince_trans hsince hrows⟩

theorem since_waitDuration (h : Since c e d) (hc : c ≤ c') :
    e.calculateWaitDurationMinutes c ≤ d.calculateWaitDurationMinutes c' := by
  by_cases hw : e.status = .waiting
  · rw [waitDuration_waiting hw]
    by_cases hd : d.status = .waiting
    · rw [waitDuration_waiting hd, h.joinedAt]
      exact Nat.div_le_div_right (Nat.sub_le_sub_right hc _)
    · rw [waitDuration_ended hd, h.joinedAt]
      exact Nat.div_le_div_right (Nat.sub_le_sub_right (h.later hw hd) _)
  · rw [h.frozen hw, waitDuration_ended hw, waitDuration_ended hw]

/-- Two readings of a ticket's wait, the run going on between them from the time of the
first: the wait grows until the party is no longer waiting and is settled then. -/
theorem waitDuration_monotone (htick : ∀ a b, E.tick a b → a ≤ b)
    (hpause : ∀ a b, E.pause a b → a ≤ b) (hrun : Run (Sequential E) (World.empty start) tr w)
    (hpost : Run (Sequential E) (w.at c) post w') (hc' : w'.clock ≤ c') {id : Uuid}
    (he : w.store.find id = some e) :
    ∃ d, w'.store.find id = some d ∧
      e.calculateWaitDurationMinutes c ≤ d.calculateWaitDurationMinutes c' ∧
      (e.status ≠ .waiting →
        d.calculateWaitDurationMinutes c' = e.calculateWaitDurationMinutes c) := by
  have hheld := run_held hrun
  obtain ⟨-, hclock, hsince⟩ := run_since (v := w.at c) htick hpause hheld hpost
  obtain ⟨hmem, hid⟩ := find_eq_some.mp he
  obtain ⟨d, hd, hed⟩ := hsince e hmem
  refine ⟨d, find_eq_some.mpr ⟨hd, hed.id.trans hid⟩,
    since_waitDuration hed (hclock.trans hc'), fun hn => ?_⟩
  rw [hed.frozen hn, waitDuration_ended hn, waitDuration_ended hn]

/-- A party is looked at after two minutes, seated, and looked at again. -/
def looksTwice : World := smooth.final (.empty 0) [walkIn "r" "1"]

theorem looksTwice_stored : (looksTwice.store.find (.ofText "7")).isSome = true := by decide +kernel

theorem waitDuration_monotone_seated :
    ∃ d, (smooth.final (looksTwice.at 130000) [seatAt "r" "7" "t"]).store.find (.ofText "7") = some d ∧
      ((looksTwice.store.find (.ofText "7")).get looksTwice_stored).calculateWaitDurationMinutes 130000 ≤
        d.calculateWaitDurationMinutes 600000 ∧
      (((looksTwice.store.find (.ofText "7")).get looksTwice_stored).status ≠ .waiting →
        d.calculateWaitDurationMinutes 600000 = ((looksTwice.store.find (.ofText "7")).get
          looksTwice_stored).calculateWaitDurationMinutes 130000) :=
  waitDuration_monotone (env_tick smooth) (fun a b h => (env_pause smooth a b h).le)
    (smooth.history_run _ _) (smooth.history_run _ _) (by decide +kernel)
    (Option.some_get looksTwice_stored).symm

end SpotQueue.WaitDuration
