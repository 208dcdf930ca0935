import SpotQueue.Simulation
import SpotQueue.TicketViews

namespace SpotQueue.LiveViews

open SpotQueue.Entity SpotQueue.Repository SpotQueue.Environment SpotQueue.Recalculator
open SpotQueue.UseCases SpotQueue.Frame SpotQueue.Guards SpotQueue.Line SpotQueue.Recalculation
open SpotQueue.Seating SpotQueue.Leaving SpotQueue.Registration SpotQueue.StoreChanges
open SpotQueue.RowChanges SpotQueue.SequentialRun SpotQueue.Simulation SpotQueue.TicketViews
open SpotQueue.Awaits.AsyncProgram SpotQueue.Awaits.AsyncProtocol SpotQueue.Awaits.LabelledRun

variable {E : Env} {w u v w' : World} {s : Store} {r q : String} {l : List QueueEntry} {e d : QueueEntry}
  {etas : List Nat} {α : Type}

/-- What a recalculation made of one row, and what it showed of it: left alone, it
has the estimate predicted for its place; otherwise both views carry the new one. -/
inductive RowReport (E : Env) (r : String) (w w' : World) (e : QueueEntry) : QueueEntry → Prop
  | kept (hcached : (views w').cached e.id = (views w).cached e.id)
      (htold : (views w').told e.id = (views w).told e.id)
      (hplace : e ∈ w.store.waiting (.ofText r) → ∃ l j m, IsLine w.store (.ofText r) l ∧
        l[j]? = some e ∧ E.eta (.ofText r) (sumPartySize (l.take j)) e.partySize m ∧
        e.estimatedWaitMinutes = some m) : RowReport E r w w' e e
  | renewed {l : List QueueEntry} {j m : Nat} {t : Time} (hline : IsLine w.store (.ofText r) l)
      (hj : l[j]? = some e) (hcached : (views w').cached e.id = some (some (j + 1), some m))
      (htold : (views w').told e.id = some (j + 1)) :
      RowReport E r w w' e
        { e with position := some (j + 1), estimatedWaitMinutes := some m, updatedAt := t }

/-- A row of the line that is no delta is stored as predicted. -/
theorem estimate_of_not_delta (hline : IsLine s (.ofText r) l) (hetas : EtasOf E r l etas)
    (he : e ∈ s.waiting (.ofText r)) (hid : e.id ∉ (deltas (entryInputs 0 0 l) etas).map (·.id)) :
    ∃ j m, l[j]? = some e ∧ E.eta (.ofText r) (sumPartySize (l.take j)) e.partySize m ∧
      e.estimatedWaitMinutes = some m := by
  obtain ⟨j, hj⟩ := List.mem_iff_getElem?.mp (hline.perm.mem_iff.mpr he)
  have hlt : j < etas.length := etasOf_length hetas ▸ (List.getElem?_eq_some_iff.mp hj).1
  have hm : etas[j]? = some etas[j] := List.getElem?_eq_getElem hlt
  refine ⟨j, _, hj, etasOf_getElem? hetas hj hm, ?_⟩
  by_contra hne
  exact hid (List.mem_map_of_mem (mem_deltas.mpr ⟨j, e, _, hj, hm, .inr hne, rfl⟩))

theorem recalculate_reports {x : Except QueueError PositionRecalculationResult}
    (hfails : ∀ c, E.fails c → Upstream c) (h : Executes E.Answers (recalculate r) w x w') :
    (∃ res, x = .ok res) ∧ ∃ g : QueueEntry → QueueEntry, w'.store.entries = w.store.entries.map g ∧
      ∀ e ∈ w.store.entries, RowReport E r w w' e (g e) := by
  cases recalculate_executes h with
  | rejected hf _ => exact (upstream_not_essential hfails hf).elim
  | @settled l etas _ hline hetas hnone hstill =>
    refine ⟨⟨_, rfl⟩, id, by rw [hstill.store, List.map_id], fun e he => ?_⟩
    refine .kept (by rw [views_still hstill]) (by rw [views_still hstill]) fun hw => ?_
    obtain ⟨j, m, hj, hm⟩ := estimate_of_not_delta hline hetas hw (by simp [hnone])
    exact ⟨l, j, m, hline, hj, hm⟩
  | @renumbered l etas ds u _ hline hetas hds _ hstill hrest =>
    obtain ⟨-, hviews⟩ := shows_report hfails r ds _ _ _ hrest
    have hbefore : views (u.commit (w.store.updatePositions (ds.map (·.update)) u.clock)) =
        views w := (rfl : views (u.commit _) = views u).trans (views_still hstill)
    rw [hbefore] at hviews
    have hstore := (calm_of_issues (issues_report _ _) hrest).store
    have hkey : (ds.map (·.id)).Nodup := by
      have hsub := deltas_ids (entryInputs 0 0 l) etas
      rw [entryInputs_ids, hds] at hsub
      exact (isLine_nodup hline).sublist hsub
    refine ⟨⟨_, rfl⟩, fun e => (ds.map (·.update)).foldl (applyUpdate u.clock) e, ?_, fun e he => ?_⟩
    · rw [hstore]
      rfl
    beta_reduce
    by_cases hid : e.id ∈ ds.map (·.id)
    · obtain ⟨δ, hδ, hidδ⟩ := List.mem_map.mp hid
      have hmem := hδ
      rw [← hds] at hmem
      obtain ⟨j, d, m, hj, hm, -, rfl⟩ := mem_deltas.mp hmem
      obtain rfl : d = e :=
        eq_of_id_eq w.store.key ((isLine_mem hline).mp (List.mem_of_getElem? hj)).1 he hidδ
      obtain ⟨t, ht⟩ := recalculated_row (t := u.clock) (isLine_nodup hline) hj hm
      rw [recalculation, hds] at ht
      rw [ht]
      refine .renewed hline hj ?_ ?_
      · rw [hviews]
        exact foldl_update_of_mem hkey hδ _
      · rw [hviews]
        exact foldl_update_of_mem hkey hδ _
    · have hids : e.id ∉ (ds.map (·.update)).map (·.id) := by
        simpa [PositionDelta.update, Function.comp_def] using hid
      rw [foldl_applyUpdate_of_not_mem hids]
      refine .kept ?_ ?_ fun hw => ?_
      · rw [hviews]
        exact foldl_update_of_not_mem hid _
      · rw [hviews]
        exact foldl_update_of_not_mem hid _
      · obtain ⟨j, m, hj, hm⟩ := estimate_of_not_delta hline hetas hw (hds ▸ hid)
        exact ⟨l, j, m, hline, hj, hm⟩

theorem report_id (h : RowReport E r w w' e d) : d.id = e.id := by
  cases h <;> rfl

/-- Whatever a recalculation makes of a row, a row that was shown stays shown. -/
theorem shown_report (h : RowReport E r w w' e d) (hshown : Shown (views w) e) :
    Shown (views w') d := by
  cases h with
  | kept hcached htold _ => exact ⟨hcached.trans hshown.cached, htold.trans hshown.told⟩
  | renewed hline hj hcached htold =>
    have hwaiting := ((isLine_mem hline).mp (List.mem_of_getElem? hj)).2.2
    exact ⟨by simpa [hwaiting] using hcached, htold⟩

theorem shown_tell {v : Views} {id : Uuid} {position : Option Nat} (hne : e.id ≠ id)
    (h : Shown v e) : Shown (v.tell id position) e :=
  ⟨h.cached, (Function.update_of_ne hne _ _).trans h.told⟩

theorem shown_cache {v : Views} {id : Uuid} {live : Option (Option Nat × Option Nat)}
    (hne : e.id ≠ id) (h : Shown v e) : Shown (v.cache id live) e :=
  ⟨(Function.update_of_ne hne _ _).trans h.cached, h.told⟩

/-- Every row is shown as it is stored. -/
def Live (w : World) : Prop := ∀ e ∈ w.store.entries, Shown (views w) e

theorem live_still (h : Still E w w') (hlive : Live w) : Live w' := by
  intro e he
  rw [views_still h]
  exact hlive e (h.store ▸ he)

theorem views_committed (h : Committed E w s w') : views w' = views w := by
  simp [views, h.cache, h.deliveries]

/-- A row that left its line is shown as such, and so are the rows that close ranks. -/
theorem live_closeRanks {z : World} {id : Uuid} {c : QueueEntry}
    {rest : PositionRecalculationResult → UseCase α} {x : Except QueueError α}
    (hfails : ∀ c, E.fails c → Upstream c) (hlive : Live w)
    (hid : c.id = id) (hstatus : c.status ≠ .waiting) (hposition : c.position = none)
    (hviews : views z = views w) (hentries : z.store.entries = (w.store.put c).entries)
    (hshows : ∀ res, Shows E (fun v => v.tell id none) (rest res))
    (hquiet : ∀ res, Issues Quiet (rest res))
    (h : Executes E.Answers (closeRanks id.text r >>= rest) z x w') : Live w' := by
  rw [closeRanks, bind_assoc] at h
  obtain ⟨_, u, hremove, h⟩ | ⟨err, -, hremove⟩ := executes_bind h
  swap
  · obtain ⟨⟨a, ha⟩, -⟩ := shows_removeLiveEntry hfails id _ _ _ hremove
    cases ha
  have hu := (shows_removeLiveEntry hfails id _ _ _ hremove).2
  have hustore := (calm_of_issues (issues_removeLiveEntry _) hremove).store
  obtain ⟨res, v, hrec, h⟩ | ⟨err, -, hrec⟩ := executes_bind h
  swap
  · obtain ⟨⟨a, ha⟩, -⟩ := recalculate_reports hfails hrec
    cases ha
  obtain ⟨-, g, hv, hreport⟩ := recalculate_reports hfails hrec
  have hw' := (hshows res _ _ _ h).2
  have hstore := (calm_of_issues (hquiet res) h).store
  rw [hviews] at hu
  intro e' he'
  rw [hstore, hv] at he'
  obtain ⟨e, he, rfl⟩ := List.mem_map.mp he'
  have hrow := hreport e he
  rw [hustore, hentries, Store.put_entries] at he
  obtain ⟨e₀, he₀, rfl⟩ := List.mem_map.mp he
  rw [hw']
  by_cases hec : e₀.id = c.id
  · rw [if_pos hec] at hrow ⊢
    -- the row that left is in no line, so the recalculation kept it
    generalize hgc : g c = gc at hrow ⊢
    cases hrow with
    | kept hcached _ _ =>
      refine ⟨hcached.trans ?_, ?_⟩
      · rw [hu, hid, if_neg hstatus]
        exact Function.update_self _ _ _
      · rw [hid, hposition]
        exact Function.update_self _ _ _
    | renewed hline hj _ _ =>
      exact (hstatus ((isLine_mem hline).mp (List.mem_of_getElem? hj)).2.2).elim
  · rw [if_neg hec] at hrow ⊢
    have hne : e₀.id ≠ id := fun h => hec (h.trans hid.symm)
    refine shown_tell (by rwa [report_id hrow]) (shown_report hrow ?_)
    rw [hu]
    exact shown_cache hne (hlive e₀ he₀)

theorem seating_live {q : String} {counts : QueueEntry → List AssignTableItem} {tableIds : List String}
    {assignedBy : String} {rest : QueueEntry → UseCase α} {calls : Calls} {x : Except QueueError α}
    (hlive : Live w) (h : SeatingOutcome E r q counts tableIds assignedBy rest w calls x w')
    (hrest : ∀ found a b z post, Found w r q found → views z = views w →
      z.store.entries = (w.store.put (found.seated a b)).entries →
      Traces E.Answers (rest (found.seated a b)) z post x w' → Live w') : Live w' := by
  cases h with
  | refused hstill _ => exact live_still hstill hlive
  | stranded _ _ hstill => exact live_still (w := occupy w _) hstill hlive
  | seated hfound _ _ _ hstore h =>
    exact hrest _ _ _ _ _ hfound (views_committed (w := occupy w _) hstore) (by rw [hstore.store]; rfl) h

theorem skipped_live {input : SkipPartyInput} {found : QueueEntry} {a : Time} {v : World}
    {x : Except QueueError SkipPartyOutput} (hfails : ∀ c, E.fails c → Upstream c) (hlive : Live w)
    (hspelled : input.queueEntryId = found.id.text)
    (hv : Committed E w (statusStore w.store ⟨found.skipped a, found.status, input.staffUserId,
      some input.reason, none⟩ v.clock) v)
    (h : Executes E.Answers (do
      let _ ← closeRanks input.queueEntryId input.restaurantId
      notifySkipped input (found.skipped a) input.reason none) v x w') : Live w' := by
  rw [hspelled] at h
  exact live_closeRanks (c := found.skipped a) hfails hlive rfl nofun rfl (views_committed hv)
    (by rw [hv.store]; rfl) (fun _ => shows_notifySkipped hfails hspelled _ _ _)
    (fun _ => issues_notifySkipped _ _ _ _) h

theorem cancelQueueEntry_live {input : CancelQueueEntryInput}
    {x : Except QueueError CancelQueueEntryOutput} (hfails : ∀ c, E.fails c → Upstream c)
    (hlive : Live w)
    (hspelled : ∀ found, Found w input.restaurantId input.queueEntryId found →
      input.queueEntryId = found.id.text)
    (h : CancelOutcome E input w x w') : Live w' := by
  cases h with
  | refused hstill => exact live_still hstill hlive
  | @cancelled found a b _ _ _ hfound hb hv hrest =>
    have hid := hspelled found hfound
    have hstatus : (found.cancelled (targetStatus input.reason) a b).status ≠ .waiting :=
      leaves_status (.cancelled (targetStatus_cases _) hb)
    rw [hid] at hrest
    exact live_closeRanks hfails hlive rfl hstatus rfl (views_committed hv)
      (by rw [hv.store]; rfl) (fun _ => shows_notifyCancelled hfails hid _)
      (fun _ => issues_notifyCancelled _ _) hrest

theorem seatParty_live {input : SeatPartyInput} {calls : Calls}
    {x : Except QueueError SeatPartyOutput} (hfails : ∀ c, E.fails c → Upstream c) (hlive : Live w)
    (hspelled : ∀ found, Found w input.restaurantId input.queueEntryId found →
      input.queueEntryId = found.id.text)
    (h : Traces E.Answers (seatParty input) w calls x w') : Live w' := by
  apply seating_live hlive (seatParty_executes h)
  intro found a b z post hfound hviews hentries h
  have hid := hspelled found hfound
  rw [hid] at h
  exact live_closeRanks (c := found.seated a b) hfails hlive rfl nofun rfl hviews hentries
    (fun _ => shows_notifySeated hfails hid _) (fun _ => issues_notifySeated _ _) ⟨_, h⟩

theorem live_put {c : QueueEntry} (hrow : Shown (views w') c)
    (hother : ∀ d ∈ w.store.entries, d.id ≠ c.id → Shown (views w') d)
    (hentries : w'.store.entries = (w.store.put c).entries) : Live w' := by
  intro d hd
  rw [hentries, Store.put_entries] at hd
  obtain ⟨e, he, rfl⟩ := List.mem_map.mp hd
  by_cases hid : e.id = c.id
  · rwa [if_pos hid]
  · rw [if_neg hid]
    exact hother e he hid

theorem assignTable_live {input : AssignTablesInput} {calls : Calls}
    {x : Except QueueError AssignTablesOutput} (hfails : ∀ c, E.fails c → Upstream c) (hlive : Live w)
    (hspelled : ∀ found, Found w input.restaurantId input.queueEntryId found →
      input.queueEntryId = found.id.text)
    (h : Traces E.Answers (assignTable input) w calls x w') : Live w' := by
  obtain ⟨ahead, houtcome⟩ := assignTable_executes h
  apply seating_live hlive houtcome
  intro found a b z post hfound hviews hentries h
  have hid := hspelled found hfound
  obtain ⟨-, hshows⟩ := shows_afterAssigning hfails hid _ _ _ _ _ _ ⟨_, h⟩
  have hstore := (calm_of_issues (issues_afterAssigning _ _ _ _) ⟨_, h⟩).store
  rw [hviews] at hshows
  refine live_put (c := found.seated a b) ?_ (fun d hd hne => ?_) (hstore ▸ hentries)
  · rw [hshows]
    exact ⟨Function.update_self _ _ _, Function.update_self _ _ _⟩
  · rw [hshows]
    exact shown_tell hne (shown_cache hne (hlive d hd))

theorem ringCustomer_live {input : RingCustomerInput} {x : Except QueueError RingCustomerOutput}
    (hfails : ∀ c, E.fails c → Upstream c) (hlive : Live w) (h : RingOutcome E input w x w') :
    Live w' := by
  cases h with
  | refused hstill => exact live_still hstill hlive
  | @rung found a b _ v _ hfound hv hrest =>
    obtain ⟨-, hshows⟩ := shows_notifyRung hfails _ _ _ _ _ hrest
    have hviews : views w' = views w := hshows.trans (views_committed hv)
    have hstore := (calm_of_issues (issues_notifyRung _ _) hrest).store
    have hfoundShown := hlive found hfound.mem
    refine live_put (w := w) (c := found.rung a b) ?_ (fun d hd _ => ?_) ?_
    · rw [hviews]
      exact ⟨hfoundShown.cached, hfoundShown.told⟩
    · rw [hviews]
      exact hlive d hd
    · rw [hstore, hv.store]

theorem register_live {input : RegisterQueueInput} {calls : Calls}
    {x : Except QueueError RegisterQueueOutput} (hfails : ∀ c, E.fails c → Upstream c)
    (hlive : Live w) (h : RegisterOutcome E input w calls x w') :
    Live (World.respond w' (x.map .registered)) := by
  cases h with
  | refused hstill => exact live_still hstill hlive
  | @registered _ _ _ now minutes id metrics e _ _ _ _ _ v _ _ _ _ he _ hfresh _ _ hv hrest =>
    obtain ⟨-, hshows⟩ := shows_announce hfails _ _ _ _ _ _ _ ⟨_, hrest⟩
    have hstore := (announce_calm ⟨_, hrest⟩).store
    rw [views_committed hv] at hshows
    intro d hd
    change Shown (views (w'.deliver (.registered (toOutputDTO e)))) d
    change d ∈ w'.store.entries at hd
    rw [hstore, hv.store, joinedStore, Store.log_entries, Store.insert_entries, List.mem_append,
      List.mem_singleton] at hd
    rw [views_deliver, hshows]
    obtain hd | rfl := hd
    · have hne : d.id ≠ e.id := fun h => hfresh (h ▸ List.mem_map_of_mem hd)
      have hshown := hlive d hd
      exact ⟨(Function.update_of_ne hne _ _).trans hshown.cached,
        (if_neg (Ne.symm hne)).trans hshown.told⟩
    · subst he
      exact ⟨Function.update_self _ _ _, if_pos rfl⟩

end SpotQueue.LiveViews
