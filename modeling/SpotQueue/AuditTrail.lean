import SpotQueue.RowWrites
import SpotQueue.StoreWrites
import SpotQueue.Simulation
import Mathlib.Data.List.Chain

namespace SpotQueue.AuditTrail

open SpotQueue.Entity SpotQueue.Repository SpotQueue.Environment SpotQueue.UseCases SpotQueue.Line
open SpotQueue.Seating SpotQueue.Leaving SpotQueue.Registration SpotQueue.Recalculation
open SpotQueue.SequentialRun SpotQueue.RowWrites SpotQueue.StoreWrites SpotQueue.Simulation
open SpotQueue.Awaits.LabelledRun

variable {E : Env} {w : World} {op : Operation} {s s' : Store} {e d : QueueEntry}
  {rows : List StatusHistory} {status : QueueStatus} {h : StatusHistory} {id : Uuid}

/-- The history of one ticket, in the order it was written. -/
def trail (id : Uuid) (s : Store) : List StatusHistory := s.history.filter (·.queueEntryId = id)

def HandsOver (a b : StatusHistory) : Prop := b.previousStatus = some a.currentStatus

/-- The rows start with a registration, hand the status on from row to row and
end with the status that is stored. -/
structure Chained (rows : List StatusHistory) (status : QueueStatus) : Prop where
  first : ∃ h ∈ rows.head?, h.previousStatus = none ∧ h.currentStatus = .waiting
  linked : rows.IsChain HandsOver
  last : ∃ h ∈ rows.getLast?, h.currentStatus = status

structure Audited (s : Store) : Prop where
  chained : ∀ e ∈ s.entries, Chained (trail e.id s) e.status
  known : ∀ h ∈ s.history, h.queueEntryId ∈ s.entries.map (·.id)

theorem chained_start (hprevious : h.previousStatus = none) (hcurrent : h.currentStatus = .waiting) :
    Chained [h] .waiting :=
  ⟨⟨h, rfl, hprevious, hcurrent⟩, .singleton h, ⟨h, rfl, hcurrent⟩⟩

theorem chained_append (hrows : Chained rows status) (hprevious : h.previousStatus = some status) :
    Chained (rows ++ [h]) h.currentStatus := by
  obtain ⟨first, hfirst, hstart⟩ := hrows.first
  obtain ⟨last, hlast, hstatus⟩ := hrows.last
  refine ⟨⟨first, ?_, hstart⟩, ?_, ⟨h, by simp, rfl⟩⟩
  · rw [List.head?_append, Option.mem_def.mp hfirst]
    rfl
  · refine List.isChain_append.mpr ⟨hrows.linked, .singleton h, fun a ha b hb => ?_⟩
    rw [Option.mem_def.mp hlast] at ha
    cases ha
    cases hb
    rw [HandsOver, hstatus, hprevious]

/-- What a write makes of the statuses, and what the history is told of it. -/
inductive Telling (s s' : Store) : Prop
  | silent {f : QueueEntry → QueueEntry} (hentries : s'.entries = s.entries.map f)
      (hf : ∀ e ∈ s.entries, (f e).id = e.id ∧ (f e).status = e.status)
      (hhistory : s'.history = s.history)
  | told {e d : QueueEntry} {h : StatusHistory} (hmem : e ∈ s.entries) (hid : d.id = e.id)
      (hentries : s'.entries = (s.put d).entries) (hhistory : s'.history = s.history ++ [h])
      (hrow : h.queueEntryId = e.id) (hprevious : h.previousStatus = some e.status)
      (hcurrent : h.currentStatus = d.status)
  | joined {e : QueueEntry} {h : StatusHistory} (hfresh : e.id ∉ s.entries.map (·.id))
      (hw : e.status = .waiting) (hentries : s'.entries = s.entries ++ [e])
      (hhistory : s'.history = s.history ++ [h]) (hrow : h.queueEntryId = e.id)
      (hprevious : h.previousStatus = none) (hcurrent : h.currentStatus = .waiting)

theorem write_telling (hwrite : Write op s s') : Telling s s' := by
  cases hwrite with
  | joined _ hfresh => exact .joined hfresh rfl rfl rfl rfl rfl rfl
  | @seated e a b _ _ _ _ hmem _ =>
    exact .told (d := e.seated a b) hmem rfl rfl rfl rfl rfl rfl
  | status hmem _ hd =>
    refine .told hmem ?_ rfl rfl ?_ rfl rfl <;> cases hd <;> rfl
  | rung hmem _ _ =>
    refine .silent rfl (fun c hc => ?_) rfl
    split
    · rename_i hid
      exact ⟨hid.symm, by rw [eq_of_id_eq s.key hc hmem hid]; rfl⟩
    · exact ⟨rfl, rfl⟩
  | renumbered | reordered =>
    exact .silent rfl (fun c _ => ⟨foldl_applyUpdate_id _ _ c, foldl_applyUpdate_status _ _ c⟩) rfl

theorem trail_append (hhistory : s'.history = s.history ++ [h]) (id : Uuid) :
    trail id s' = if h.queueEntryId = id then trail id s ++ [h] else trail id s := by
  by_cases hid : h.queueEntryId = id <;> simp [trail, hhistory, List.filter_append, hid]

/-- A ticket that is not stored has no history yet. -/
theorem trail_fresh (hknown : ∀ h ∈ s.history, h.queueEntryId ∈ s.entries.map (·.id))
    (hfresh : id ∉ s.entries.map (·.id)) : trail id s = [] := by
  refine List.filter_eq_nil_iff.mpr fun h hh hid => hfresh ?_
  exact of_decide_eq_true hid ▸ hknown h hh

theorem audited_telling (htelling : Telling s s') (hs : Audited s) : Audited s' := by
  cases htelling with
  | silent hentries hf hhistory =>
    have htrail : ∀ id, trail id s' = trail id s := fun id => by rw [trail, hhistory, trail]
    constructor
    · intro d hd
      rw [hentries] at hd
      obtain ⟨e, he, rfl⟩ := List.mem_map.mp hd
      rw [(hf e he).1, (hf e he).2, htrail]
      exact hs.chained e he
    · intro h hh
      rw [hhistory] at hh
      obtain ⟨e, he, hid⟩ := List.mem_map.mp (hs.known h hh)
      rw [hentries, List.map_map]
      exact List.mem_map.mpr ⟨e, he, (hf e he).1.trans hid⟩
  | @told e d row hmem hid hentries hhistory hrow hprevious hcurrent =>
    have hids : s'.entries.map (·.id) = s.entries.map (·.id) := by
      rw [hentries]
      exact mapEntries_ids s _ _
    constructor
    · intro c hc
      rw [hentries, Store.put_entries] at hc
      obtain ⟨b, hb, rfl⟩ := List.mem_map.mp hc
      rw [trail_append hhistory]
      split
      · rename_i hbd
        rw [if_pos (hrow.trans hid.symm), hid, ← hcurrent]
        exact chained_append (hs.chained e hmem) hprevious
      · rename_i hbd
        rw [if_neg fun h => hbd (h.symm.trans (hrow.trans hid.symm))]
        exact hs.chained b hb
    · intro h hh
      rw [hhistory, List.mem_append, List.mem_singleton] at hh
      rw [hids]
      obtain hh | rfl := hh
      · exact hs.known h hh
      · exact hrow ▸ List.mem_map_of_mem hmem
  | @joined e row hfresh hw hentries hhistory hrow hprevious hcurrent =>
    constructor
    · intro c hc
      rw [hentries, List.mem_append, List.mem_singleton] at hc
      rw [trail_append hhistory]
      obtain hc | rfl := hc
      · rw [if_neg fun h => hfresh (hrow.symm.trans h ▸ List.mem_map_of_mem hc)]
        exact hs.chained c hc
      · rw [if_pos hrow, trail_fresh hs.known hfresh, hw]
        exact chained_start hprevious hcurrent
    · intro h hh
      rw [hhistory, List.mem_append, List.mem_singleton] at hh
      rw [hentries, List.map_append, List.mem_append]
      obtain hh | rfl := hh
      · exact .inl (hs.known h hh)
      · exact .inr (by simp [hrow])

/-- After every operation of a sequential run, completed or aborted, the history of
every ticket is a chain from its registration to its stored status. -/
theorem run_audited {start : Time} {tr : History} (hrun : Run (Sequential E) (World.empty start) tr w) :
    ∀ e ∈ w.store.entries, Chained (trail e.id w.store) e.status :=
  (run_writes (G := fun _ => True) (I := Audited) ⟨List.forall_mem_nil _, List.forall_mem_nil _⟩
    (fun _ hwrite => audited_telling (write_telling hwrite)) hrun fun _ _ => trivial).chained

theorem run_audited_letPast :
    (smooth.final (.empty 0) letPast).store.entries.length = 2 ∧
      ∀ e ∈ (smooth.final (.empty 0) letPast).store.entries,
        Chained (trail e.id (smooth.final (.empty 0) letPast).store) e.status :=
  ⟨by decide +kernel, run_audited (smooth.history_run (.empty 0) letPast)⟩

end SpotQueue.AuditTrail
