import SpotQueue.RowWrites
import SpotQueue.Simulation

namespace SpotQueue.Departure

open SpotQueue.Entity SpotQueue.Repository SpotQueue.Environment SpotQueue.Recalculator
open SpotQueue.UseCases SpotQueue.Frame SpotQueue.Guards SpotQueue.Recalculation SpotQueue.Seating
open SpotQueue.Registration SpotQueue.StoreChanges SpotQueue.RowWrites
open SpotQueue.Simulation
open SpotQueue.Awaits.AsyncProgram SpotQueue.Awaits.AsyncProtocol SpotQueue.Awaits.LabelledRun
open SpotQueue.Awaits.AsyncPool

variable {ι : Type} [DecidableEq ι] {E : Env} {w w' : World} {s s' : Store} {id : Uuid}
  {e : QueueEntry} {c : Call} {ops : ι → Operation}

def storedStatus (id : Uuid) (s : Store) : Option QueueStatus := (s.find id).map (·.status)

/-- The history rows that tell of the ticket having left its line. -/
def departures (id : Uuid) (s : Store) : List StatusHistory :=
  s.history.filter fun h => h.queueEntryId = id ∧ h.currentStatus ≠ .waiting

def Departed (id : Uuid) (s : Store) : Prop := ∃ status ≠ .waiting, storedStatus id s = some status

/-- The history has one departure of a ticket that departed and none of any other. -/
structure Recorded (id : Uuid) (s : Store) : Prop where
  departed : Departed id s → (departures id s).length = 1
  waiting : ¬ Departed id s → (departures id s).length = 0

theorem Kept.status (h : Kept s s') (id : Uuid) : storedStatus id s' = storedStatus id s :=
  h.column (fun e d hd => by rw [hd]) id

theorem Rewrite.status (h : Rewrite e s s') : storedStatus e.id s' = some e.status := by
  obtain ⟨createdAt, hrow⟩ := h.row
  rw [storedStatus, hrow, Option.map_some]

theorem Rewrite.other_status (h : Rewrite e s s') (hne : id ≠ e.id) :
    storedStatus id s' = storedStatus id s := by
  rw [storedStatus, h.others id hne, storedStatus]

/-- A row saved without history is saved as waiting. -/
def SavesWaiting : Call → Prop
  | .save e => e.status = .waiting
  | _ => True

theorem reads_savesWaiting {c : Call} (h : Reads c) : SavesWaiting c := by
  cases c <;> first | exact h.elim | exact trivial

theorem quiet_savesWaiting {c : Call} (h : Quiet c) : SavesWaiting c := by
  obtain h | h := h
  · exact reads_savesWaiting h
  · cases c <;> first | exact h.elim | exact trivial

theorem issues_reads {α : Type} {p : UseCase α} (hp : Issues Reads p) : Issues SavesWaiting p :=
  issues_mono (fun _ => reads_savesWaiting) hp

theorem issues_quiet {α : Type} {p : UseCase α} (hp : Issues Quiet p) : Issues SavesWaiting p :=
  issues_mono (fun _ => quiet_savesWaiting) hp

theorem issues_recalculating (r : String) : Issues SavesWaiting (recalculate r) := by
  refine issues_mono (fun c hc => ?_) (issues_recalculate r)
  obtain hc | ⟨us, rfl⟩ := hc
  · exact quiet_savesWaiting hc
  · trivial

theorem issues_closeRanks (q r : String) : Issues SavesWaiting (closeRanks q r) :=
  issues_bind (issues_quiet (issues_removeLiveEntry q)) fun _ => issues_recalculating r

theorem issues_skipOut (input : SkipPartyInput) (found : QueueEntry) :
    Issues SavesWaiting (skipOut input found) :=
  issues_bind (issues_reads (issues_skip found)) fun _ => issues_bind (issues_call trivial) fun _ =>
    issues_bind (issues_closeRanks _ _) fun _ => issues_quiet (issues_notifySkipped _ _ _ _)

theorem issues_reorder (input : SkipPartyInput) (found : QueueEntry) (k : Nat)
    (l : List QueueEntry) (i : Nat) : Issues SavesWaiting (reorder input found k l i) :=
  issues_bind (issues_reads (issues_updatePosition _ _)) fun _ => issues_bind (issues_batch trivial) fun _ =>
    issues_bind (issues_call trivial) fun _ => issues_bind (issues_recalculating _) fun _ =>
      issues_quiet (issues_notifySkipped _ _ _ _)

theorem issues_ringCustomer (input : RingCustomerInput) :
    Issues SavesWaiting (ringCustomer input) := by
  apply issues_bind (issues_reads (issues_findOwned _ _))
  intro found
  apply issues_yielded (issues_reads (issues_ring found)) (yields_ring found)
  intro e he
  obtain ⟨hw, a, b, rfl⟩ := he
  exact issues_bind (issues_call hw) fun _ => issues_quiet (issues_notifyRung _ _)

theorem issues_skipParty (input : SkipPartyInput) : Issues SavesWaiting (skipParty input) := by
  refine issues_bind (issues_reads (issues_findOwned _ _)) fun found =>
    issues_bind (issues_reads (issues_requireWaiting found)) fun _ => ?_
  split
  · apply issues_bind (issues_call trivial)
    intro l
    split
    · exact issues_reorder _ _ _ _ _
    · exact issues_skipOut _ _
  · exact issues_skipOut _ _

theorem issues_cancelQueueEntry (input : CancelQueueEntryInput) :
    Issues SavesWaiting (cancelQueueEntry input) := by
  refine issues_bind (issues_reads (issues_findOwned _ _)) fun found =>
    issues_bind (issues_reads (issues_cancel found _)) fun _ => issues_bind ?_ fun _ =>
      issues_bind (issues_call trivial) fun _ => issues_bind (issues_closeRanks _ _) fun _ =>
        issues_quiet (issues_notifyCancelled _ _)
  apply issues_bind (issues_call trivial)
  intro l
  split
  · exact issues_bind (issues_call trivial) fun _ => issues_call trivial
  · exact issues_pure _

theorem issues_seatParty (input : SeatPartyInput) : Issues SavesWaiting (seatParty input) :=
  issues_bind (issues_reads (issues_findOwned _ _)) fun found =>
    issues_bind (issues_reads (issues_seat found)) fun _ => issues_bind (issues_call trivial) fun _ =>
      issues_bind (issues_call trivial) fun _ => issues_bind (issues_closeRanks _ _) fun _ =>
        issues_quiet (issues_notifySeated _ _)

theorem issues_assignTable (input : AssignTablesInput) : Issues SavesWaiting (assignTable input) := by
  apply issues_bind (issues_reads (issues_findOwned _ _))
  intro found
  change Issues SavesWaiting (if _ then _ else _)
  split
  · exact issues_throw _
  exact issues_bind (issues_reads (issues_peopleAheadAtJoin _ _)) fun _ =>
    issues_bind (issues_reads (issues_seat found)) fun _ => issues_bind (issues_call trivial) fun _ =>
      issues_bind (issues_call trivial) fun _ => issues_quiet (issues_afterAssigning _ _ _ _)

theorem issues_registerQueue (input : RegisterQueueInput) :
    Issues SavesWaiting (registerQueue input) :=
  issues_bind (issues_reads (issues_mono (fun _ => admission_reads) (issues_checkAdmission input)))
    fun _ => issues_bind (issues_call trivial) fun _ => issues_bind (issues_call trivial) fun _ =>
      issues_bind (issues_call trivial) fun _ => issues_bind (issues_call trivial) fun _ =>
        issues_bind (issues_call trivial) fun _ =>
          issues_bind (issues_quiet (issues_mono (fun _ => announcement_quiet) (issues_announce _ _ _ _)))
            fun _ => issues_pure _

theorem issues_execute (op : Operation) : Issues SavesWaiting op.execute := by
  have hmap : ∀ {α : Type} {f : α → Outcome} {p : UseCase α}, Issues SavesWaiting p →
      Issues SavesWaiting (f <$> p) := fun hp => issues_bind hp fun _ => issues_pure _
  cases op with
  | register input => exact hmap (issues_registerQueue input)
  | seatParty input => exact hmap (issues_seatParty input)
  | assignTable input => exact hmap (issues_assignTable input)
  | skipParty input => exact hmap (issues_skipParty input)
  | cancelQueueEntry input => exact hmap (issues_cancelQueueEntry input)
  | ringCustomer input => exact hmap (issues_ringCustomer input)

/-- A status other than WAITING is never changed by a step, and the history never
has two departures of the ticket. -/
structure OneWayOut (id : Uuid) (tr : Interleaving ι) : Prop where
  final : ∀ step ∈ tr, ∀ status ≠ .waiting, storedStatus id step.before.state.store = some status →
    storedStatus id step.after.state.store = some status
  once : ∀ step ∈ tr, (departures id step.after.state.store).length ≤ 1

/-- Nobody writes the row of the ticket once it has departed. -/
def NeverStale (id : Uuid) (tr : Interleaving ι) : Prop :=
  ∀ step ∈ tr, Rewrites id step.label → ¬ Departed id step.before.state.store

theorem departures_told (h : Told e s s') : (departures e.id s').length =
    (departures e.id s).length + if e.status = .waiting then 0 else 1 := by
  obtain ⟨row, hid, hstatus, hhistory⟩ := h
  by_cases hw : e.status = .waiting <;> simp [departures, hhistory, List.filter_append, hid, hstatus, hw]

theorem departures_told_other (h : Told e s s') (hne : id ≠ e.id) :
    departures id s' = departures id s := by
  obtain ⟨row, hid, -, hhistory⟩ := h
  simp [departures, hhistory, List.filter_append, hid, hne.symm]

variable {q q₀ : Underway ι} {l : Step ι Call Answer QueueError} {q' : Underway ι}
  {tr : Interleaving ι}

theorem step_rewrites (hsaves : SavesWaiting l.call) (hrow : e ∈ rewritten l.call)
    (hok : ∃ a, l.answer = .ok a) (h : Interleaves E.Answers q l q') :
    storedStatus e.id q'.state.store = some e.status ∧
      (departures e.id q'.state.store).length =
        (departures e.id q.state.store).length + if e.status = .waiting then 0 else 1 := by
  obtain ⟨i, -, hc⟩ := h
  rename_i c k x w
  change ∃ a : Answer c, x = .ok a at hok
  obtain ⟨a, rfl⟩ := hok
  obtain ⟨hwritten, htold | ⟨rfl, hhistory⟩⟩ := rewritten_answers hrow hc
  · exact ⟨Rewrite.status hwritten, departures_told htold⟩
  · refine ⟨Rewrite.status hwritten, ?_⟩
    rw [if_pos (show e.status = .waiting from hsaves), departures, hhistory]
    rfl

theorem step_elsewhere (hrow : ¬ Rewrites id l) (h : Interleaves E.Answers q l q') :
    storedStatus id q'.state.store = storedStatus id q.state.store ∧
      departures id q'.state.store = departures id q.state.store := by
  obtain ⟨i, -, hc⟩ := h
  rename_i c k x w
  obtain err | a := x
  · have hstore := (rejected_still hc).store
    dsimp only
    exact ⟨by rw [hstore], by rw [hstore]⟩
  cases hwritten : rewritten c with
  | none =>
    have hkept := kept_answers hwritten hc
    exact ⟨Kept.status hkept id, by rw [departures, hkept.history, departures]⟩
  | some e =>
    have hne : id ≠ e.id := fun hid => hrow ⟨e, hwritten, hid.symm, a, rfl⟩
    obtain ⟨hrewrite, htold | ⟨-, hhistory⟩⟩ := rewritten_answers hwritten hc
    · exact ⟨Rewrite.other_status hrewrite hne, departures_told_other htold hne⟩
    · exact ⟨Rewrite.other_status hrewrite hne, by rw [departures, hhistory, departures]⟩

theorem departed_iff {status : QueueStatus} (h : storedStatus id s = some status) :
    Departed id s ↔ status ≠ .waiting := by
  constructor
  · rintro ⟨status', hne, h'⟩
    rw [h] at h'
    cases h'
    exact hne
  · exact fun hne => ⟨status, hne, h⟩

theorem recorded_step (hsaves : SavesWaiting l.call)
    (hfresh : Rewrites id l → ¬ Departed id q.state.store) (h : Interleaves E.Answers q l q')
    (hrecorded : Recorded id q.state.store) : Recorded id q'.state.store := by
  by_cases hrow : Rewrites id l
  · have hnone := hrecorded.waiting (hfresh hrow)
    obtain ⟨e, he, rfl, hok⟩ := hrow
    obtain ⟨hstatus, hlength⟩ := step_rewrites hsaves he hok h
    rw [hnone, Nat.zero_add] at hlength
    refine ⟨fun hdeparted => ?_, fun hwaiting => ?_⟩
    · rw [hlength, if_neg ((departed_iff hstatus).mp hdeparted)]
    · rw [hlength, if_pos (not_not.mp (mt (departed_iff hstatus).mpr hwaiting))]
  · obtain ⟨hstatus, hsame⟩ := step_elsewhere hrow h
    have hdeparted : Departed id q'.state.store ↔ Departed id q.state.store := by
      rw [Departed, Departed, hstatus]
    exact ⟨fun h => hsame ▸ hrecorded.departed (hdeparted.mp h),
      fun h => hsame ▸ hrecorded.waiting (mt hdeparted.mpr h)⟩

/-- Whatever is overwritten, a departed ticket has a departure in its history. -/
def Traced (id : Uuid) (s : Store) : Prop := Departed id s → 1 ≤ (departures id s).length

theorem traced_step (hsaves : SavesWaiting l.call) (h : Interleaves E.Answers q l q')
    (htraced : Traced id q.state.store) : Traced id q'.state.store := by
  intro hdeparted
  by_cases hrow : Rewrites id l
  · obtain ⟨e, he, rfl, hok⟩ := hrow
    obtain ⟨hstatus, hlength⟩ := step_rewrites hsaves he hok h
    rw [hlength, if_neg ((departed_iff hstatus).mp hdeparted)]
    omega
  · obtain ⟨hstatus, hsame⟩ := step_elsewhere hrow h
    rw [hsame]
    apply htraced
    rwa [Departed, ← hstatus]

theorem together_saves (hrun : Run (Interleaves E.Answers) (together ops w) tr q) :
    ∀ step ∈ tr, SavesWaiting step.label.call :=
  interleaves_calls (fun i => issues_execute (ops i)) hrun

theorem run_recorded (hrecorded : Recorded id w.store) (hstale : NeverStale id tr)
    (hrun : Run (Interleaves E.Answers) (together ops w) tr q) : Recorded id q.state.store :=
  run_invariant (I := fun _ (q : Underway ι) => Recorded id q.state.store)
    (G := fun step => SavesWaiting step.label.call ∧
      (Rewrites id step.label → ¬ Departed id step.before.state.store)) hrecorded
    (fun _ hI hstep hG => recorded_step hG.1 hG.2 hstep hI) hrun
    fun step hstep => ⟨together_saves hrun step hstep, hstale step hstep⟩

theorem run_traced (htraced : Traced id w.store)
    (hrun : Run (Interleaves E.Answers) (together ops w) tr q) : Traced id q.state.store :=
  run_invariant (I := fun _ (q : Underway ι) => Traced id q.state.store)
    (G := fun step => SavesWaiting step.label.call) htraced
    (fun _ hI hstep hG => traced_step hG hstep hI) hrun (together_saves hrun)

/-- In any interleaving a ticket leaves its line once and for good if and only
if no execution writes its row after that. -/
theorem one_way_out_iff (hrecorded : Recorded id w.store)
    (hrun : Run (Interleaves E.Answers) (together ops w) tr q) :
    OneWayOut id tr ↔ NeverStale id tr := by
  constructor
  · rintro ⟨hfinal, honce⟩ step hstep hrow ⟨status, hne, hstatus⟩
    have hsaves := together_saves hrun step hstep
    have hkept := hfinal step hstep status hne hstatus
    have hleft := honce step hstep
    obtain ⟨pre, hpre, -⟩ := run_upto hrun hstep
    obtain ⟨e, he, rfl, hok⟩ := hrow
    obtain ⟨hafter, hlength⟩ := step_rewrites hsaves he hok (run_mem hrun hstep)
    have hbefore : 1 ≤ (departures e.id step.before.state.store).length :=
      run_traced (fun hd => (hrecorded.departed hd).ge) hpre ⟨status, hne, hstatus⟩
    rw [hafter] at hkept
    cases hkept
    rw [hlength, if_neg hne] at hleft
    omega
  · intro hstale
    have hrecords : ∀ step ∈ tr, Recorded id step.after.state.store := by
      intro step hstep
      obtain ⟨pre, -, hupto, hsub⟩ := run_upto hrun hstep
      exact run_recorded hrecorded (fun d hd => hstale d (hsub d hd)) hupto
    refine ⟨fun step hstep status hne hstatus => ?_, fun step hstep => ?_⟩
    · have hrow : ¬ Rewrites id step.label := fun h => hstale step hstep h ⟨status, hne, hstatus⟩
      rw [(step_elsewhere hrow (run_mem hrun hstep)).1, hstatus]
    · by_cases hdeparted : Departed id step.after.state.store
      · exact ((hrecords step hstep).departed hdeparted).le
      · exact ((hrecords step hstep).waiting hdeparted).le.trans (Nat.zero_le 1)

theorem recorded_waiting (hstatus : storedStatus id s = some .waiting)
    (hnone : (departures id s).length = 0) : Recorded id s :=
  ⟨fun h => ((departed_iff hstatus).mp h rfl).elim, fun _ => hnone⟩

theorem oneWaiting_recorded : Recorded (.ofText "7") oneWaiting.store :=
  recorded_waiting (by decide +kernel) (by decide +kernel)

/-- One host seats the party while another cancels its ticket. -/
def seatAndCancel : Bool → Operation
  | false => seatAt "r" "7" "t"
  | true => cancelFor "r" "7" "gone"

/-- The turns of `seatAndCancel`, in the given order. -/
def taking (turns : List Bool) : Interleaving Bool × Underway Bool :=
  interleave smooth.reply (together seatAndCancel oneWaiting) turns

theorem taking_run (turns : List Bool) :
    Run (Interleaves smooth.env.Answers) (together seatAndCancel oneWaiting) (taking turns).1
      (taking turns).2 :=
  interleave_run smooth.reply_answers _ _

theorem one_way_out_iff_inTurn :
    OneWayOut (.ofText "7") (taking (List.replicate 8 false ++ [true])).1 ↔
      NeverStale (.ofText "7") (taking (List.replicate 8 false ++ [true])).1 :=
  one_way_out_iff oneWaiting_recorded (taking_run _)

/-- The cancellation has read the row as waiting before the seat is stored. -/
def seatedThenCancelled : List Bool := true :: List.replicate 5 false ++ List.replicate 6 true

theorem cancelled_after_seating :
    ¬ ∀ (ι : Type) [DecidableEq ι] (E : Env) (ops : ι → Operation) (id : Uuid) (w : World)
      (tr : Interleaving ι) (q : Underway ι),
      (∀ i, ∃ queueEntryId, (ops i).queueEntryId = some queueEntryId ∧ .ofText queueEntryId = id) →
      Recorded id w.store → Run (Interleaves E.Answers) (together ops w) tr q → OneWayOut id tr := by
  intro h
  have hops : ∀ i, ∃ queueEntryId, (seatAndCancel i).queueEntryId = some queueEntryId ∧
      Uuid.ofText queueEntryId = .ofText "7" := by
    intro i
    cases i <;> exact ⟨"7", rfl, rfl⟩
  have hall := h Bool smooth.env seatAndCancel (.ofText "7") oneWaiting _ _ hops
    oneWaiting_recorded (taking_run seatedThenCancelled)
  have hoverwritten : (taking seatedThenCancelled).1.any (fun step =>
      storedStatus (.ofText "7") step.before.state.store = some .seated ∧
        storedStatus (.ofText "7") step.after.state.store = some .cancelled) = true := by
    decide +kernel
  obtain ⟨step, hstep, hstatus⟩ := List.any_eq_true.mp hoverwritten
  obtain ⟨hbefore, hafter⟩ := of_decide_eq_true hstatus
  have hkept := hall.final step hstep .seated nofun hbefore
  rw [hafter] at hkept
  cases hkept

end SpotQueue.Departure
