import SpotQueue.LiveViews

namespace SpotQueue.LiveRun

open SpotQueue.Entity SpotQueue.Repository SpotQueue.Environment SpotQueue.Recalculator
open SpotQueue.UseCases SpotQueue.Frame SpotQueue.Line SpotQueue.Recalculation SpotQueue.Seating
open SpotQueue.Leaving SpotQueue.Registration SpotQueue.StoreChanges SpotQueue.RowChanges
open SpotQueue.SequentialRun SpotQueue.Simulation SpotQueue.TicketViews
open SpotQueue.LiveViews
open SpotQueue.Awaits.AsyncProgram SpotQueue.Awaits.AsyncProtocol SpotQueue.Awaits.LabelledRun

variable {E : Env} {w u v w' : World} {s s' : Store} {r : Uuid} {l l' : List QueueEntry}
  {e d : QueueEntry} {f : QueueEntry → QueueEntry} {i k : Nat} {start : Time} {tr : History}

/-- What moving line `l` to `l'` by hand makes of a row, before any recalculation. -/
inductive Reordered (l l' : List QueueEntry) (e : QueueEntry) : QueueEntry → Prop
  | outside (hout : e ∉ l) : Reordered l l' e e
  | placed {j : Nat} {t : Time} (hj : l'[j]? = some e) :
      Reordered l l' e { e with position := some (j + 1), updatedAt := t }

theorem reordered_sameTicket (h : Reordered l l' e d) : SameTicket e d := by
  cases h <;> rfl

theorem reordered_rows {found : QueueEntry} {a t : Time} (hline : IsLine s r l)
    (hi : l[i]? = some found) :
    ∃ f : QueueEntry → QueueEntry,
      ((shiftedStore s l i k t).put (found.moved (targetIndex l i k + 1) a)).entries =
        s.entries.map f ∧ ∀ e ∈ s.entries, Reordered l (shiftedLine l i k) e (f e) := by
  have hperm := shiftedLine_perm hi k
  have hkey : ((shiftedLine l i k).map (·.id)).Nodup :=
    (hperm.map _).nodup_iff.mpr (isLine_nodup hline)
  have hmem := (isLine_mem hline).mp (List.mem_of_getElem? hi)
  have hstored := List.map_map (f := (reorderUpdates (shiftedLine l i k)).foldl (applyUpdate t))
    (g := fun c => if c.id = found.id then found.moved (targetIndex l i k + 1) a else c)
    (l := s.entries)
  refine ⟨_, hstored, fun e he => ?_⟩
  dsimp only [Function.comp_apply]
  obtain ⟨hout, hkept⟩ | ⟨j, hj, hplaced⟩ := reorder_cases (t := t) hline hperm he
  · have hne : e.id ≠ found.id := fun hid =>
      hout (eq_of_id_eq s.key he hmem.1 hid ▸ List.mem_of_getElem? hi)
    rw [hkept, if_neg hne]
    exact .outside hout
  · rw [hplaced]
    by_cases hid : e.id = found.id
    · obtain ⟨rfl, rfl⟩ := index_unique hkey hj (shiftedLine_target hi k) hid
      rw [if_pos rfl]
      exact .placed hj
    · rw [if_neg hid]
      exact .placed hj

/-- Read back, a line that was moved by hand is the line it was moved to. -/
theorem reordered_line {l₁ : List QueueEntry} (hline : IsLine s r l) (hperm : l'.Perm l)
    (hentries : s'.entries = s.entries.map f) (hf : ∀ e ∈ s.entries, Reordered l l' e (f e))
    (hline' : IsLine s' r l₁) : l₁ = l'.map f := by
  have hkey : (l'.map (·.id)).Nodup := (hperm.map _).nodup_iff.mpr (isLine_nodup hline)
  have hwaiting := waiting_map (r := r) hentries fun e he => by
    rw [reordered_sameTicket (hf e he)]
  refine numbered_line_unique (hwaiting ▸ (hperm.trans hline.perm).map f) (fun j d hd => ?_) hline'
  rw [List.getElem?_map, Option.map_eq_some_iff] at hd
  obtain ⟨e, he, rfl⟩ := hd
  have hel := hperm.mem_iff.mp (List.mem_of_getElem? he)
  have hrow := hf e ((isLine_mem hline).mp hel).1
  generalize f e = d at hrow ⊢
  cases hrow with
  | outside hout => exact (hout hel).elim
  | placed hj => rw [(index_unique hkey hj he rfl).1]

/-- Whoever stands elsewhere than stored is predicted another wait than stored. -/
def Renews (E : Env) (r : Uuid) (l : List QueueEntry) : Prop :=
  ∀ j e m, l[j]? = some e → e.position ≠ some (j + 1) →
    E.eta r (sumPartySize (l.take j)) e.partySize m → e.estimatedWaitMinutes ≠ some m

theorem shown_tell_self {v : Views} (h : Shown v e) : Shown (v.tell e.id e.position) e :=
  ⟨h.cached, Function.update_self _ _ _⟩

/-- A row moved to place `j` by hand is shown there after the recalculation, which
either renews it or finds it where it was stored and shown before. -/
theorem shown_placed {r : String} {j : Nat} {t : Time} (hline : IsLine w.store (.ofText r) l)
    (hperm : l'.Perm l) (hentries : v.store.entries = w.store.entries.map f)
    (hf : ∀ e ∈ w.store.entries, Reordered l l' e (f e)) (hrenews : Renews E (.ofText r) l')
    (hshown : Shown (views v) e) (hj : l'[j]? = some e)
    (hfe : f e = { e with position := some (j + 1), updatedAt := t })
    (hreport : RowReport E r v w' (f e) d) : Shown (views w') d ∧ d.position = some (j + 1) := by
  have hmem : e ∈ l := hperm.mem_iff.mp (List.mem_of_getElem? hj)
  obtain ⟨hstored, howned, hwaiting⟩ := (isLine_mem hline).mp hmem
  have hsame : ∀ c ∈ w.store.entries, SameTicket c (f c) := fun c hc => reordered_sameTicket (hf c hc)
  have hkey : (l'.map (·.id)).Nodup := (hperm.map _).nodup_iff.mpr (isLine_nodup hline)
  have hplace : ∀ {l₁ : List QueueEntry} {j₁ : Nat}, IsLine v.store (.ofText r) l₁ →
      l₁[j₁]? = some (f e) → j₁ = j ∧ sumPartySize (l₁.take j₁) = sumPartySize (l'.take j) := by
    intro l₁ j₁ hline₁ hj₁
    obtain rfl := reordered_line hline hperm hentries hf hline₁
    rw [List.getElem?_map, Option.map_eq_some_iff] at hj₁
    obtain ⟨c, hc, hfc⟩ := hj₁
    have hcmem := ((isLine_mem hline).mp (hperm.mem_iff.mp (List.mem_of_getElem? hc))).1
    have hid : c.id = e.id := by
      have hcid : (f c).id = c.id := by rw [hsame c hcmem]
      rw [← hcid, hfc, hfe]
    obtain ⟨rfl, -⟩ := index_unique hkey hc hj hid
    refine ⟨rfl, ?_⟩
    rw [← List.map_take]
    apply sumPartySize_map
    intro b hb
    have hb' := hperm.mem_iff.mp (List.mem_of_mem_take hb)
    rw [hsame b ((isLine_mem hline).mp hb').1]
  cases hreport with
  | @renewed l₁ j₁ m t' hline₁ hj₁ hcached htold =>
    obtain ⟨rfl, -⟩ := hplace hline₁ hj₁
    rw [hfe] at hcached htold ⊢
    exact ⟨⟨by simpa [hwaiting] using hcached, htold⟩, rfl⟩
  | kept hcached htold hkept =>
    have hvmem : f e ∈ v.store.waiting (.ofText r) := by
      rw [waiting_mem, hentries, hfe]
      exact ⟨hfe ▸ List.mem_map_of_mem hstored, howned, hwaiting⟩
    obtain ⟨l₁, j₁, m, hline₁, hj₁, heta, hm⟩ := hkept hvmem
    obtain ⟨rfl, hsum⟩ := hplace hline₁ hj₁
    rw [hsum] at heta
    rw [hfe] at hcached htold hm heta ⊢
    have hposition : e.position = some (j₁ + 1) := by
      by_contra hne
      exact hrenews _ e m hj hne heta hm
    refine ⟨⟨hcached.trans ?_, htold.trans ?_⟩, rfl⟩
    · rw [hshown.cached, hposition]
    · rw [hshown.told, hposition]

theorem reordered_live {input : SkipPartyInput} {found : QueueEntry} {a : Time}
    {x : Except QueueError SkipPartyOutput} (hfails : ∀ c, E.fails c → Upstream c) (hlive : Live w)
    (hline : IsLine w.store (.ofText input.restaurantId) l) (hi : l[i]? = some found)
    (hrenews : Renews E (.ofText input.restaurantId) (shiftedLine l i k))
    (hspelled : input.queueEntryId = found.id.text)
    (hu : Committed E w (shiftedStore w.store l i k u.clock) u)
    (hv : Committed E u (statusStore u.store ⟨found.moved (targetIndex l i k + 1) a, found.status,
      input.staffUserId, some (shiftedReason input.reason k), none⟩ v.clock) v)
    (hrest : Executes E.Answers (do
      let _ ← recalculate input.restaurantId
      notifySkipped input (found.moved (targetIndex l i k + 1) a) (shiftedReason input.reason k)
        (some (targetIndex l i k + 1))) v x w') : Live w' := by
  have hperm := shiftedLine_perm hi k
  have hkey : ((shiftedLine l i k).map (·.id)).Nodup :=
    (hperm.map _).nodup_iff.mpr (isLine_nodup hline)
  obtain ⟨f, hentries, hf⟩ := reordered_rows (k := k) (a := a) (t := u.clock) hline hi
  have hstored : v.store.entries = w.store.entries.map f := by
    rw [hv.store, hu.store, ← hentries]
    rfl
  have hviews : views v = views w := (views_committed hv).trans (views_committed hu)
  obtain ⟨res, z, hrec, hnotify⟩ | ⟨err, -, hrec⟩ := executes_bind hrest
  swap
  · obtain ⟨⟨_, ha⟩, -⟩ := recalculate_reports hfails hrec
    cases ha
  obtain ⟨-, g, hz, hreport⟩ := recalculate_reports hfails hrec
  have hshows := (shows_notifySkipped hfails hspelled _ _ _ _ _ _ hnotify).2
  have hstore := (calm_of_issues (issues_notifySkipped _ _ _ _) hnotify).store
  intro e' he'
  rw [hstore, hz, hstored, List.map_map] at he'
  obtain ⟨e, he, rfl⟩ := List.mem_map.mp he'
  have hrow := hreport (f e) (hstored ▸ List.mem_map_of_mem he)
  have hshown : Shown (views v) e := hviews ▸ hlive e he
  have hfe := hf e he
  rw [hshows, Function.comp_apply]
  have hid : (g (f e)).id = e.id := (report_id hrow).trans (by rw [reordered_sameTicket hfe])
  generalize hd : f e = d at hfe hrow hid ⊢
  cases hfe with
  | outside hout =>
    have hne : e.id ≠ found.id := fun h => hout <|
      eq_of_id_eq w.store.key he ((isLine_mem hline).mp (List.mem_of_getElem? hi)).1 h ▸
        List.mem_of_getElem? hi
    exact shown_tell (hid ▸ hne) (shown_report hrow hshown)
  | @placed j t hj =>
    rw [← hd] at hrow
    obtain ⟨hshown, hposition⟩ := shown_placed hline hperm hstored hf hrenews hshown hj hd hrow
    rw [hd] at hshown hposition
    by_cases hfound : e.id = found.id
    · obtain ⟨rfl, rfl⟩ := index_unique hkey hj (shiftedLine_target hi k) hfound
      have htold := shown_tell_self hshown
      rwa [hid, hposition] at htold
    · exact shown_tell (fun h => hfound (hid.symm.trans h)) hshown

/-- Where a party is moved down, the new places all come with new estimates. -/
def Noticed (E : Env) (w : World) : Operation → Prop
  | .skipParty input => ∀ found l i k, Found w input.restaurantId input.queueEntryId found →
    input.skipPositions = some (k + 1) → IsLine w.store (.ofText input.restaurantId) l →
    l[i]? = some found → Renews E (.ofText input.restaurantId) (shiftedLine l i (k + 1))
  | _ => True

/-- The ticket of a waiting party is spelled the way the store prints it. -/
def Spelled (w : World) (restaurantId queueEntryId : String) : Prop :=
  ∀ found, Found w restaurantId queueEntryId found → queueEntryId = found.id.text

/-- A ring goes by the id of the row it found, whatever the request said. -/
def WellSpelled (w : World) : Operation → Prop
  | .register _ | .ringCustomer _ => True
  | .seatParty input => Spelled w input.restaurantId input.queueEntryId
  | .assignTable input => Spelled w input.restaurantId input.queueEntryId
  | .skipParty input => Spelled w input.restaurantId input.queueEntryId
  | .cancelQueueEntry input => Spelled w input.restaurantId input.queueEntryId

theorem found_at {t : Time} {r q : String} (h : Found (w.at t) r q e) : Found w r q e :=
  ⟨h.find, h.owned, h.waiting⟩

theorem noticed_at {t : Time} {op : Operation} (h : Noticed E w op) : Noticed E (w.at t) op := by
  cases op with
  | skipParty input => exact fun found l i k hfound => h found l i k (found_at hfound)
  | _ => trivial

theorem spelled_at {t : Time} {r q : String} (h : Spelled w r q) : Spelled (w.at t) r q :=
  fun found hfound => h found (found_at hfound)

theorem skipParty_live {input : SkipPartyInput} {x : Except QueueError SkipPartyOutput}
    (hfails : ∀ c, E.fails c → Upstream c) (hlive : Live w)
    (hnoticed : Noticed E w (.skipParty input))
    (hspelled : Spelled w input.restaurantId input.queueEntryId)
    (h : SkipOutcome E input w x w') : Live w' := by
  cases h with
  | refused hstill => exact live_still hstill hlive
  | shifted _ _ _ _ _ hessential _ => exact (upstream_not_essential hfails hessential).elim
  | reordered hfound hk hline hi hu hv hrest =>
    exact reordered_live hfails hlive hline hi (hnoticed _ _ _ _ hfound hk hline hi)
      (hspelled _ hfound) hu hv hrest
  | skipped hfound _ hv hrest => exact skipped_live hfails hlive (hspelled _ hfound) hv hrest

theorem step_live {step : Executed} (hfails : ∀ c, E.fails c → Upstream c) (hheld : Held w.store)
    (hlive : Live w) (hnoticed : Noticed E w step.operation)
    (hspelled : WellSpelled w step.operation) (h : Sequential E w step w') : Live w' := by
  cases h with
  | @executes u op calls result t hpause hrun =>
  have hat : Live (w.at t) := hlive
  cases op with
  | register input =>
    obtain ⟨x, hregister, rfl⟩ := traces_map hrun
    exact register_live hfails hat (registerQueue_executes hregister)
  | seatParty input =>
    obtain ⟨x, hseat, rfl⟩ := traces_map hrun
    have hend := seatParty_live hfails hat (spelled_at hspelled) hseat
    cases x <;> exact hend
  | assignTable input =>
    obtain ⟨x, hassign, rfl⟩ := traces_map hrun
    have hend := assignTable_live hfails hat (spelled_at hspelled) hassign
    cases x <;> exact hend
  | skipParty input =>
    obtain ⟨x, hskip, rfl⟩ := traces_map hrun
    have hend := skipParty_live hfails hat (noticed_at hnoticed) (spelled_at hspelled)
      (skipParty_executes ⟨_, hskip⟩)
    cases x <;> exact hend
  | cancelQueueEntry input =>
    obtain ⟨x, hcancel, rfl⟩ := traces_map hrun
    have hfree : TableFree (w.at t).store := held_tableFree hheld
    have hend := cancelQueueEntry_live hfails hat (spelled_at hspelled)
      (cancelQueueEntry_executes hfree ⟨_, hcancel⟩)
    cases x <;> exact hend
  | ringCustomer input =>
    obtain ⟨x, hring, rfl⟩ := traces_map hrun
    have hend := ringCustomer_live hfails hat (ringCustomer_executes ⟨_, hring⟩)
    cases x <;> exact hend

/-- Nothing the line, the cache or the clients depend on fails, and every step of
the run names its ticket in the store's spelling and renews the estimates it reorders. -/
structure Followable (E : Env) (tr : History) : Prop where
  fails : ∀ c, E.fails c → Upstream c
  noticed : ∀ step ∈ tr, Noticed E step.before step.label.operation
  spelled : ∀ step ∈ tr, WellSpelled step.before step.label.operation

theorem live_empty (t : Time) : Live (World.empty t) := by
  simp [Live, World.empty, Store.empty]

theorem run_live (hfollow : Followable E tr) (hrun : Run (Sequential E) (World.empty start) tr w) :
    Live w := by
  induction hrun with
  | nil => exact live_empty start
  | @snoc tr w w' l hrun hstep ih =>
    have hpast : Followable E tr := ⟨hfollow.fails,
      fun step h => hfollow.noticed step (List.mem_append_left _ h),
      fun step h => hfollow.spelled step (List.mem_append_left _ h)⟩
    exact step_live hfollow.fails (run_held hrun) (ih hpast) (hfollow.noticed ⟨w, l, w'⟩ (by simp))
      (hfollow.spelled ⟨w, l, w'⟩ (by simp)) hstep

/-- After every operation of such a run the live views show what is stored. -/
theorem views_follow_store (hfollow : Followable E tr)
    (hrun : Run (Sequential E) (World.empty start) tr w) : ∀ step ∈ tr, Live step.after := by
  intro step hstep
  obtain ⟨pre, -, hupto, hsub⟩ := run_upto hrun hstep
  exact run_live ⟨hfollow.fails, fun s h => hfollow.noticed s (hsub s h),
    fun s h => hfollow.spelled s (hsub s h)⟩ hupto

/-- The line in front of the reordering of `letPast`. -/
abbrev waitingTwo : List QueueEntry :=
  (smooth.final (.empty 0) [walkIn "r" "1", walkIn "r" "2"]).store.waiting (.ofText "r")

theorem letPast_noticed :
    Noticed smooth.env (smooth.final (.empty 0) [walkIn "r" "1", walkIn "r" "2"])
      (skipBy "r" "7" (some 1)) := by
  intro found l i k hfound hk hline hi j e m hj hmoved heta
  cases hk
  have hlength : waitingTwo.length = 2 := by decide +kernel
  have hplaces : ∀ j < 2, ∀ e ∈ waitingTwo[j]?, e.position = some (j + 1) := by decide +kernel
  have hrenews : ∀ i < 2, ∀ d ∈ waitingTwo[i]?, d.id = .ofText "7" →
      ∀ j < 2, ∀ e ∈ (shiftedLine waitingTwo i 1)[j]?, e.position = some (j + 1) ∨
        e.estimatedWaitMinutes ≠
          some (sumPartySize ((shiftedLine waitingTwo i 1).take j) + e.partySize) := by
    decide +kernel
  have hnumbered : Numbered waitingTwo := fun j e hj =>
    hplaces j (hlength ▸ (List.getElem?_eq_some_iff.mp hj).1) e hj
  obtain rfl : l = waitingTwo := numbered_line_unique (.refl _) hnumbered hline
  have hi2 : i < 2 := hlength ▸ (List.getElem?_eq_some_iff.mp hi).1
  have hj2 : j < 2 := by
    rw [← hlength, ← (shiftedLine_perm hi 1).length_eq]
    exact (List.getElem?_eq_some_iff.mp hj).1
  obtain hplace | hrenewed := hrenews i hi2 found hi hfound.id j hj2 e hj
  · exact (hmoved hplace).elim
  · exact (show m = _ from heta) ▸ hrenewed

theorem letPast_spelled {step : Transition World Executed}
    (hstep : step ∈ smooth.history (.empty 0) letPast) :
    WellSpelled step.before step.label.operation := by
  have hop := Script.operation_mem hstep
  simp only [letPast, List.mem_cons, List.not_mem_nil, or_false] at hop
  obtain hop | hop | hop := hop
  · rw [hop]
    trivial
  · rw [hop]
    trivial
  · rw [hop]
    intro found hfound
    rw [hfound.id]
    exact (by decide : "7" = (Uuid.ofText "7").text)

theorem letPast_followable : Followable smooth.env (smooth.history (.empty 0) letPast) where
  fails _ hf := (Bool.false_ne_true hf).elim
  spelled _ hstep := letPast_spelled hstep
  noticed step hstep := by
    obtain hstep | hstep | hstep : step = _ ∨ step = _ ∨ step = _ := by
      simpa [letPast, Script.history] using hstep
    · rw [hstep]
      trivial
    · rw [hstep]
      trivial
    · rw [hstep]
      exact letPast_noticed

theorem views_follow_store_letPast :
    (smooth.history (.empty 0) letPast).length = 3 ∧
      ∀ step ∈ smooth.history (.empty 0) letPast, Live step.after :=
  ⟨rfl, views_follow_store letPast_followable (smooth.history_run _ _)⟩

/-- Every party is told to wait as long, however many stand in front of it. -/
def unvarying : Script := ⟨fun _ => false, fun _ _ _ => 10⟩

theorem letPast_unseen :
    ¬ ∀ (E : Env) (start : Time) (tr : History) (w : World),
      (∀ c, E.fails c → Upstream c) → Run (Sequential E) (World.empty start) tr w →
      ∀ step ∈ tr, Live step.after := by
  intro h
  have hlive : Live (unvarying.final (.empty 0) letPast) := by
    have hall := h unvarying.env 0 _ _ (fun _ hf => (Bool.false_ne_true hf).elim)
      (unvarying.history_run (.empty 0) letPast)
    exact hall _ (by simp [letPast, Script.history])
  have hrow : ((unvarying.final (.empty 0) letPast).store.entries[1]?).map
      (fun e => (e.id, e.position)) = some (.ofText "19", some 1) := by decide +kernel
  have htold : (views (unvarying.final (.empty 0) letPast)).told (.ofText "19") = some 2 := by
    decide +kernel
  obtain ⟨e, he, hfields⟩ := Option.map_eq_some_iff.mp hrow
  obtain ⟨hid, hposition⟩ := Prod.mk.inj hfields
  have hshown := (hlive e (List.mem_of_getElem? he)).told
  rw [hid, htold, hposition] at hshown
  cases hshown

end SpotQueue.LiveRun
