import SpotQueue.Guards
import SpotQueue.Line

namespace SpotQueue.Recalculation

open SpotQueue.Entity SpotQueue.Repository SpotQueue.Environment SpotQueue.Recalculator
open SpotQueue.UseCases SpotQueue.Frame SpotQueue.Guards SpotQueue.Line
open SpotQueue.Awaits.AsyncProgram SpotQueue.Awaits.AsyncProtocol

variable {E : Env} {w w' : World} {r : String}

theorem issues_predictEtas (inputs : List EntryInput) : Issues Reads (predictEtas r inputs) :=
  issues_gather fun _ => issues_call trivial

/-- Talking to the cache and the clients, and asking the clock for it. -/
def Tells (c : Call) : Prop := c = .now ∨ Talks c

theorem tells_quiet {c : Call} (h : Tells c) : Quiet c := by
  obtain rfl | h := h
  · exact .inl trivial
  · exact .inr h

theorem tells_saveLiveEntry (queueEntryId restaurantId : String) (position currentEta : Nat) :
    Issues Tells (saveLiveEntry queueEntryId restaurantId position currentEta) := by
  refine issues_attempt (issues_bind (issues_call (.inl rfl)) fun _ => ?_) fun _ => issues_pure _
  exact issues_call (.inr trivial)

theorem tells_removeLiveEntry (queueEntryId : String) : Issues Tells (removeLiveEntry queueEntryId) :=
  issues_attempt (issues_call (.inr trivial)) fun _ => issues_pure _

theorem issues_removeLiveEntry (queueEntryId : String) :
    Issues Quiet (removeLiveEntry queueEntryId) :=
  issues_mono (fun _ => tells_quiet) (tells_removeLiveEntry queueEntryId)

theorem tells_report (r : String) (ds : List PositionDelta) : Issues Tells (report r ds) := by
  refine issues_bind (issues_gather fun d => ?_) fun _ =>
    issues_bind (issues_gather fun d => ?_) fun _ => ?_
  · exact issues_attempt (tells_saveLiveEntry _ _ _ _) fun _ => issues_pure _
  · exact issues_attempt (issues_call (.inr trivial)) fun _ => issues_pure _
  · exact issues_attempt (issues_call (.inr trivial)) fun _ => issues_pure _

theorem issues_report (r : String) (ds : List PositionDelta) : Issues Quiet (report r ds) :=
  issues_mono (fun _ => tells_quiet) (tells_report r ds)

/-- What a recalculation asks and writes before it reports. -/
def Realigns : Call → Prop
  | .findActiveEntries _ | .predictEta _ _ _ | .batchUpdatePositions _ => True
  | _ => False

theorem issues_batch {Q : Call → Prop} {us : List PositionUpdate}
    (hbatch : Q (.batchUpdatePositions us)) : Issues Q (Recalculator.batchUpdatePositions us) := by
  rw [Recalculator.batchUpdatePositions]
  split
  · exact issues_pure _
  · exact issues_call hbatch

theorem issues_realigning {Q : Call → Prop} {r : String} (hline : Q (.findActiveEntries r))
    (heta : ∀ ahead partySize, Q (.predictEta r ahead partySize))
    (hbatch : ∀ us, Q (.batchUpdatePositions us)) (htells : ∀ c, Tells c → Q c) :
    Issues Q (recalculate r) := by
  apply issues_bind (issues_call hline)
  intro l
  change Issues Q (if _ then _ else _)
  split
  · exact issues_pure _
  refine issues_bind (issues_gather fun _ => issues_call (heta _ _)) fun etas => ?_
  change Issues Q (if _ then _ else _)
  split
  · exact issues_pure _
  · exact issues_bind (issues_batch (hbatch _)) fun _ =>
      issues_bind (issues_mono htells (tells_report _ _)) fun _ => issues_pure _

theorem realigns_recalculate (r : String) :
    Issues (fun c => Realigns c ∨ Tells c) (recalculate r) :=
  issues_realigning (.inl trivial) (fun _ _ => .inl trivial) (fun _ => .inl trivial) fun _ => .inr

theorem realigns_closeRanks (q r : String) :
    Issues (fun c => Realigns c ∨ Tells c) (closeRanks q r) :=
  issues_bind (issues_mono (fun _ => .inr) (tells_removeLiveEntry q)) fun _ => realigns_recalculate r

/-- The calls of a recalculation: one batch, and otherwise nothing the tables could see. -/
def Renumbers (c : Call) : Prop := Quiet c ∨ ∃ us, c = .batchUpdatePositions us

theorem realigns_renumbers {c : Call} (h : Realigns c ∨ Tells c) : Renumbers c := by
  obtain h | h := h
  · cases c with
    | batchUpdatePositions us => exact .inr ⟨us, rfl⟩
    | findActiveEntries | predictEta => exact .inl (.inl trivial)
    | _ => exact h.elim
  · exact .inl (tells_quiet h)

theorem issues_recalculate (r : String) : Issues Renumbers (recalculate r) :=
  issues_mono (fun _ => realigns_renumbers) (realigns_recalculate r)

theorem resolves_report (r : String) (ds : List PositionDelta) : Resolves (report r ds) := by
  refine resolves_bind (resolves_gather fun d => ?_) fun _ =>
    resolves_bind (resolves_gather fun d => ?_) fun _ => ?_
  all_goals exact resolves_attempt _ fun _ => resolves_pure _

/-- What `predictEta` may have answered for a line, party by party. -/
def EtasOf (E : Env) (r : String) (l : List QueueEntry) (etas : List Nat) : Prop :=
  List.Forall₂ (fun input m => E.eta (.ofText r) input.peopleAhead input.entry.partySize m)
    (entryInputs 0 0 l) etas

theorem etasOf_length {l : List QueueEntry} {etas : List Nat} (h : EtasOf E r l etas) :
    etas.length = l.length := by
  have hlen := List.Forall₂.length_eq h
  simpa using hlen.symm

theorem etasOf_getElem? {l : List QueueEntry} {etas : List Nat} {j m : Nat} {e : QueueEntry}
    (h : EtasOf E r l etas) (hj : l[j]? = some e) (hm : etas[j]? = some m) :
    E.eta (.ofText r) (sumPartySize (l.take j)) e.partySize m := by
  have hin : (entryInputs 0 0 l)[j]? = some ⟨e, j + 1, sumPartySize (l.take j)⟩ := by
    simp [entryInputs_getElem?, hj]
  have hmem : (⟨e, j + 1, sumPartySize (l.take j)⟩, m) ∈ (entryInputs 0 0 l).zip etas := by
    apply List.mem_of_getElem? (i := j)
    rw [List.getElem?_zip_eq_some]
    exact ⟨hin, hm⟩
  exact (List.forall₂_iff_zip.mp h).2 hmem

theorem predictEtas_executes {l : List QueueEntry} {etas : List Nat}
    (h : Executes E.Answers (predictEtas r (entryInputs 0 0 l)) w (.ok etas) w') :
    EtasOf E r l etas := by
  refine executes_gather (fun input m u v h => ?_) h
  obtain ⟨t, -, ⟨k, hk, hm⟩, -⟩ := answers_ok (executes_call.mp h)
  cases hm
  exact hk

/-- How a recalculation can end: rejected before it wrote anything, with nothing
to write, or with its batch committed and its report under way. -/
inductive RecalculateOutcome (E : Env) (r : String) (w : World) :
    Except QueueError PositionRecalculationResult → World → Prop
  | rejected {e : QueueError} {w' : World} (hfails : EssentialFails E) (hstill : Still E w w') :
      RecalculateOutcome E r w (.error e) w'
  | settled {l : List QueueEntry} {etas : List Nat} {w' : World}
      (hline : IsLine w.store (.ofText r) l) (hetas : EtasOf E r l etas)
      (hnone : deltas (entryInputs 0 0 l) etas = []) (hstill : Still E w w') :
      RecalculateOutcome E r w (.ok ⟨0, []⟩) w'
  | renumbered {l : List QueueEntry} {etas : List Nat} {ds : List PositionDelta} {u w' : World}
      (hline : IsLine w.store (.ofText r) l) (hetas : EtasOf E r l etas)
      (hds : deltas (entryInputs 0 0 l) etas = ds) (hsome : ds ≠ []) (hstill : Still E w u)
      (hrest : Executes E.Answers (report r ds)
        (u.commit (w.store.updatePositions (ds.map (·.update)) u.clock)) (.ok ()) w') :
      RecalculateOutcome E r w (.ok ⟨ds.length, ds.map (·.id)⟩) w'

theorem still_at {t : Time} (ht : E.tick w.clock t) : Still E w (w.at t) :=
  ⟨rfl, rfl, rfl, rfl, .single ht⟩

theorem batchUpdatePositions_executes {us : List PositionUpdate} {x : Except QueueError Unit}
    (hus : us ≠ []) (h : Executes E.Answers (Recalculator.batchUpdatePositions us) w x w') :
    (∃ e, x = .error e ∧ Still E w w' ∧
        ((∀ u ∈ us, u.id ∈ w.store.entries.map (·.id)) → EssentialFails E)) ∨
      ∃ u, x = .ok () ∧ Still E w u ∧ w' = u.commit (w.store.updatePositions us u.clock) := by
  rw [Recalculator.batchUpdatePositions] at h
  rw [if_neg (by simpa using hus)] at h
  have h := executes_call.mp h
  cases x with
  | error e =>
    refine .inl ⟨e, rfl, rejected_still h, fun hids =>
      ⟨.batchUpdatePositions us, trivial, fails_of_error h fun t hp => ?_⟩⟩
    exact (Store.batchUpdatePositions_error.mp (transacts_error hp).1).1 hids
  | ok a =>
    obtain ⟨t, ht, hp⟩ := answers_ok h
    obtain ⟨-, s, hs, rfl⟩ := transacts_ok hp
    obtain ⟨-, rfl⟩ := Store.batchUpdatePositions_ok.mp hs
    exact .inr ⟨w.at t, rfl, still_at ht, rfl⟩

theorem gather_rejected {β γ : Type} {f : β → UseCase γ} {bs : List β} {e : QueueError} {P : Prop}
    (hf : ∀ b s e t, Executes E.Answers (f b) s (.error e) t → P)
    (h : Executes E.Answers (gather f bs) w (.error e) w') : P := by
  induction bs generalizing w e with
  | nil =>
    obtain ⟨he, -⟩ := executes_pure.mp h
    cases he
  | cons b bs ih =>
    obtain ⟨c, u, -, h⟩ | ⟨d, -, h⟩ := executes_bind h
    · obtain ⟨cs, v, -, h⟩ | ⟨d, -, h⟩ := executes_bind h
      · obtain ⟨he, -⟩ := executes_pure.mp h
        cases he
      · exact ih h
    · exact hf b w d w' h

theorem predictEtas_rejected {inputs : List EntryInput} {e : QueueError}
    (h : Executes E.Answers (predictEtas r inputs) w (.error e) w') : EssentialFails E := by
  refine gather_rejected (fun input s e t h => ?_) h
  refine ⟨.predictEta _ _ _, trivial, fails_of_error (executes_call.mp h) fun t hp => ?_⟩
  obtain ⟨⟨m, -, hm⟩, -⟩ := hp
  cases hm

theorem recalculation_stored {l : List QueueEntry} (hline : IsLine w.store (.ofText r) l)
    (etas : List Nat) : ∀ u ∈ recalculation l etas, u.id ∈ w.store.entries.map (·.id) := by
  intro u hu
  have hid := (recalculation_ids l etas).subset (List.mem_map_of_mem hu)
  obtain ⟨e, he, hid⟩ := List.mem_map.mp hid
  exact hid ▸ List.mem_map_of_mem ((isLine_mem hline).mp he).1

theorem recalculate_executes {x : Except QueueError PositionRecalculationResult}
    (h : Executes E.Answers (recalculate r) w x w') : RecalculateOutcome E r w x w' := by
  obtain ⟨l, u, hl, h⟩ | ⟨e, rfl, he⟩ := executes_call_bind h
  swap
  · refine .rejected ⟨.findActiveEntries _, trivial, fails_of_error he fun t hp => ?_⟩ (rejected_still he)
    obtain ⟨⟨l, -, hl⟩, -⟩ := hp
    cases hl
  have hu := answers_still (c := .findActiveEntries r) trivial hl
  obtain ⟨t, -, ⟨l', hline, hl'⟩, -⟩ := answers_ok hl
  cases hl'
  change IsLine w.store (.ofText r) l at hline
  change Executes _ (if _ then _ else _) _ _ _ at h
  split at h
  · rename_i hempty
    obtain ⟨rfl, rfl⟩ := executes_pure.mp h
    rw [List.isEmpty_iff] at hempty
    subst hempty
    exact .settled hline (.nil : EtasOf E r [] []) rfl hu
  obtain ⟨etas, v, hpredict, h⟩ | ⟨e, rfl, he⟩ := executes_bind h
  swap
  · exact .rejected (predictEtas_rejected he)
      (still_trans hu (still_of_issues (issues_predictEtas _) he))
  have hv := still_of_issues (issues_predictEtas _) hpredict
  have hetas := predictEtas_executes hpredict
  have huv := still_trans hu hv
  change Executes _ (if _ then _ else _) _ _ _ at h
  split at h
  · rename_i hempty
    obtain ⟨rfl, rfl⟩ := executes_pure.mp h
    exact .settled hline hetas (List.isEmpty_iff.mp hempty) huv
  rename_i hempty
  rw [List.isEmpty_iff] at hempty
  have hus : (deltas (entryInputs 0 0 l) etas).map (·.update) ≠ [] := by simpa using hempty
  obtain ⟨a, z, hb, h⟩ | ⟨e, rfl, he⟩ := executes_bind h
  · obtain ⟨e, he, -, -⟩ | ⟨y, -, hy, rfl⟩ := batchUpdatePositions_executes hus hb
    · cases he
    rw [hv.store, hu.store] at h
    obtain ⟨b, z, hreport, h⟩ | ⟨e, -, he⟩ := executes_bind h
    · obtain ⟨rfl, rfl⟩ := executes_pure.mp h
      exact .renumbered hline hetas rfl hempty (still_trans huv hy) hreport
    · obtain ⟨b, hb⟩ := resolves_executes (resolves_report _ _) he
      cases hb
  · obtain ⟨d, -, hstill, hfails⟩ | ⟨y, hy, -⟩ := batchUpdatePositions_executes hus he
    · refine .rejected (hfails ?_) (still_trans huv hstill)
      rw [huv.store]
      exact recalculation_stored hline etas
    · cases hy

/-- A recalculation that went through has written the batch for a line it read. -/
theorem recalculate_ok {result : PositionRecalculationResult}
    (h : Executes E.Answers (recalculate r) w (.ok result) w') :
    ∃ l etas t, IsLine w.store (.ofText r) l ∧ EtasOf E r l etas ∧
      w'.store = w.store.updatePositions (recalculation l etas) t ∧
      result.updatedEntryIds = (deltas (entryInputs 0 0 l) etas).map (·.id) := by
  cases recalculate_executes h with
  | @settled l etas _ hline hetas hnone hstill =>
    refine ⟨l, etas, w.clock, hline, hetas, ?_, ?_⟩
    · rw [recalculation, hnone, List.map_nil, updatePositions_nil, hstill.store]
    · rw [hnone]
      rfl
  | @renumbered l etas ds u _ hline hetas hds _ _ hrest =>
    refine ⟨l, etas, u.clock, hline, hetas, ?_, ?_⟩
    · rw [(calm_of_issues (issues_report _ _) hrest).store, ← hds]
      rfl
    · rw [hds]

/-- The store after a recalculation: the batch for a line it has read, or no change
where a call that it needs fails. -/
def Batched (E : Env) (r : String) (s s' : Store) : Prop :=
  (EssentialFails E ∧ s' = s) ∨ ∃ l etas t, IsLine s (.ofText r) l ∧ EtasOf E r l etas ∧
    s' = s.updatePositions (recalculation l etas) t

variable {α : Type} {rest : PositionRecalculationResult → UseCase α} {x : Except QueueError α}

/-- What follows a recalculation only talks, so the store sees at most the batch. -/
theorem recalculate_batched (hrest : ∀ res, Issues Quiet (rest res))
    (h : Executes E.Answers (recalculate r >>= rest) w x w') : Batched E r w.store w'.store := by
  have hbatch : ∀ {y u}, Executes E.Answers (recalculate r) w y u →
      Batched E r w.store u.store := by
    intro y u h
    cases y with
    | error e =>
      cases recalculate_executes h with
      | rejected hfails hstill => exact .inl ⟨hfails, hstill.store⟩
    | ok result =>
      obtain ⟨l, etas, t, hline, hetas, hstore, -⟩ := recalculate_ok h
      exact .inr ⟨l, etas, t, hline, hetas, hstore⟩
  obtain ⟨res, u, hrec, h⟩ | ⟨e, -, hrec⟩ := executes_bind h
  · rw [(calm_of_issues (hrest res) h).store]
    exact hbatch hrec
  · exact hbatch hrec

theorem closeRanks_batched {q : String} (hrest : ∀ res, Issues Quiet (rest res))
    (h : Executes E.Answers (closeRanks q r >>= rest) w x w') : Batched E r w.store w'.store := by
  rw [closeRanks, bind_assoc] at h
  obtain ⟨_, u, hremove, h⟩ | ⟨e, -, hremove⟩ := executes_bind h
  · rw [← (calm_of_issues (issues_removeLiveEntry q) hremove).store]
    exact recalculate_batched hrest h
  · obtain ⟨a, ha⟩ := resolves_executes (resolves_attempt _ fun _ => resolves_pure _) hremove
    cases ha

end SpotQueue.Recalculation
