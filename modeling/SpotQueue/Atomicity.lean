import SpotQueue.Simulation
import SpotQueue.Stages

namespace SpotQueue.Atomicity

open SpotQueue.Entity SpotQueue.Repository SpotQueue.Environment SpotQueue.Recalculator
open SpotQueue.UseCases SpotQueue.Frame SpotQueue.Guards SpotQueue.Recalculation SpotQueue.Seating
open SpotQueue.SequentialRun SpotQueue.Simulation SpotQueue.Stages
open SpotQueue.Awaits.AsyncProgram SpotQueue.Awaits.AsyncProtocol SpotQueue.Awaits.LabelledRun

variable {E : Env} {w w' : World} {calls : Calls} {α : Type}

theorem straight_orNow (o : Option Time) : Straight (Keeps .logged) False (orNow o) := by
  cases o with
  | none => exact straight_call (reads_keeps (.inr rfl) trivial)
  | some t => exact straight_pure t

/-- The messages that are sent without a catch around them. -/
theorem straight_broadcast {r : String} {event : ServerEvent} {payload : Payload}
    (hevent : event ≠ .queuePositionUpdated) :
    Straight (Keeps .logged) False (ask (.broadcastToRestaurant r event payload)) :=
  straight_call ⟨hevent, id, .inl (.inl (.inr trivial)), nofun⟩

theorem straight_send {q : String} {event : ServerEvent} {payload : Payload}
    (hevent : event ≠ .queuePositionUpdated) :
    Straight (Keeps .logged) False (ask (.sendToTicket q event payload)) :=
  straight_call ⟨hevent, id, .inl (.inl (.inr trivial)), nofun⟩

theorem straight_notifySeated (input : SeatPartyInput) (e : QueueEntry) :
    Straight (Keeps .logged) False (notifySeated input e) :=
  straight_bind (straight_orNow _) fun _ => straight_bind (straight_broadcast nofun) fun _ =>
    straight_bind (straight_send nofun) fun _ => straight_pure _

theorem straight_notifySkipped (input : SkipPartyInput) (e : QueueEntry) (reason : String)
    (position : Option Nat) : Straight (Keeps .logged) False (notifySkipped input e reason position) :=
  straight_bind (straight_broadcast nofun) fun _ => straight_bind (straight_send nofun) fun _ =>
    straight_pure _

theorem straight_notifyCancelled (input : CancelQueueEntryInput) (e : QueueEntry) :
    Straight (Keeps .logged) False (notifyCancelled input e) := by
  unfold notifyCancelled
  generalize isNoShow input.reason = noShow
  have hevent : (if noShow then ServerEvent.queueEntryNoShow else .queueEntryCancelled) ≠
      .queuePositionUpdated := by
    cases noShow <;> nofun
  refine straight_bind (straight_orNow _) fun cancelledAt => straight_bind (straight_broadcast hevent)
    fun _ => straight_bind (straight_send hevent) fun _ => ?_
  cases noShow with
  | true => exact straight_bind (straight_send nofun) fun _ => straight_pure _
  | false => exact straight_pure _

theorem advances_after {p : UseCase α} (hp : Straight (Keeps .logged) False p) :
    Advances .logged (· = .logged) p :=
  advances_straight False.elim hp

/-- What is caught does not break an operation off. -/
theorem advances_caught {p : UseCase α} (hp : Issues (fun c => Guarded c ∨ c = .now) p)
    (hresolves : Resolves p) : Advances .logged (· = .logged) p := by
  have hkept := follows_issues (P := staged) (m := .logged) hp fun c hc => ?_
  · refine follows_mono ?_ (follows_resolves hkept hresolves)
    rintro m x ⟨rfl, a, rfl⟩
    rfl
  obtain hc | rfl := hc
  · have hquiet : Quiet c := by
      cases c <;> first | exact .inr trivial | exact hc.elim
    have hlogs : ¬ Logs c := by
      cases c <;> first | exact id | exact hc.elim
    refine ⟨.inl (.inl hquiet), fun x _ => ?_⟩
    cases x with
    | ok a => exact (if_neg hlogs).trans (if_neg nofun)
    | error e => exact if_pos hc
  · refine ⟨.inl (.inl (.inl trivial)), fun x hx => ?_⟩
    obtain hd | ⟨a, rfl⟩ := hx
    · exact hd.elim
    · rfl

theorem advances_removeLiveEntry (q : String) :
    Advances .logged (· = .logged) (removeLiveEntry q) :=
  advances_caught (issues_attempt (issues_call (.inl trivial)) fun _ => issues_pure _)
    (resolves_attempt _ fun _ => resolves_pure _)

theorem advances_report (r : String) (ds : List PositionDelta) :
    Advances .logged (· = .logged) (report r ds) := by
  refine advances_caught (issues_bind (issues_gather fun d => ?_) fun _ =>
    issues_bind (issues_gather fun d => ?_) fun _ => ?_) (resolves_report r ds)
  · refine issues_attempt (issues_attempt (issues_bind (issues_call (.inr rfl)) fun _ => ?_)
      fun _ => issues_pure _) fun _ => issues_pure _
    exact issues_call (.inl trivial)
  · exact issues_attempt (issues_call (.inl rfl)) fun _ => issues_pure _
  · exact issues_attempt (issues_call (.inl rfl)) fun _ => issues_pure _

theorem advances_recalculate (r : String) : Advances .logged (· = .logged) (recalculate r) := by
  have hread : ∀ c, Reads c → Keeps .logged c := fun c => reads_keeps (.inr rfl)
  refine advances_bind (advances_after (straight_call (hread _ trivial))) ?_
  rintro _ rfl l
  change Advances .logged (· = .logged) (if _ then _ else _)
  split
  · exact rfl
  refine advances_bind (advances_after (straight_gather fun _ => straight_call (hread _ trivial))) ?_
  rintro _ rfl etas
  change Advances .logged (· = .logged) (if _ then _ else _)
  split
  · exact rfl
  refine advances_bind (B := (· = .logged)) ?_ ?_
  · rw [Recalculator.batchUpdatePositions]
    split
    · exact rfl
    · exact advances_call (.inr trivial) id fun _ => rfl
  rintro _ rfl _
  apply advances_bind (advances_report _ _)
  rintro _ rfl _
  exact rfl

theorem advances_closeRanks (q r : String) : Advances .logged (· = .logged) (closeRanks q r) := by
  apply advances_bind (advances_removeLiveEntry q)
  rintro _ rfl _
  exact advances_recalculate r

theorem advances_seatParty (input : SeatPartyInput) :
    Advances .untouched (· = .logged) (seatParty input) := by
  apply advances_bind (advances_reads (straight_findOwned trivial))
  rintro _ rfl found
  apply advances_bind (advances_reads (straight_seat trivial found))
  rintro _ rfl e
  refine advances_bind (advances_call (.inl (.inr (.inl ⟨_, _, rfl⟩))) id fun _ => rfl) ?_
  rintro _ rfl _
  refine advances_bind (advances_call (.inr (.inr trivial)) id fun _ => rfl) ?_
  rintro _ rfl persisted
  apply advances_bind (advances_closeRanks _ _)
  rintro _ rfl _
  exact advances_after (straight_notifySeated input persisted)

theorem advances_skipOut (input : SkipPartyInput) (found : QueueEntry) :
    Advances .untouched (· = .logged) (skipOut input found) := by
  apply advances_bind (advances_reads (straight_skip trivial found))
  rintro _ rfl e
  refine advances_bind (advances_call (.inr (.inr trivial)) id fun _ => rfl) ?_
  rintro _ rfl persisted
  apply advances_bind (advances_closeRanks _ _)
  rintro _ rfl _
  exact advances_after (straight_notifySkipped input persisted _ _)

def Unlogged (stage : Stage) : Prop := stage = .untouched ∨ stage = .touched

theorem advances_updateStatus {stage : Stage} (hstage : Unlogged stage)
    (params : UpdateStatusWithHistoryParams) :
    Advances stage (· = .logged) (ask (.updateStatusWithHistory params)) := by
  obtain rfl | rfl := hstage
  · exact advances_call (.inr (.inr trivial)) id fun _ => rfl
  · exact advances_call trivial id fun _ => rfl

theorem advances_reorder (input : SkipPartyInput) (found : QueueEntry) (skipPositions : Nat)
    (activeEntries : List QueueEntry) (currentIndex : Nat) :
    Advances .untouched (· = .logged)
      (reorder input found skipPositions activeEntries currentIndex) := by
  apply advances_bind (advances_reads (straight_updatePosition trivial found _))
  rintro _ rfl e
  refine advances_bind (B := Unlogged) ?_ ?_
  · rw [Recalculator.batchUpdatePositions]
    split
    · exact .inl rfl
    · exact advances_mono (B := (· = .touched)) (fun _ => .inr)
        (advances_call (.inr (.inl trivial)) id fun _ => rfl)
  intro stage hstage _
  apply advances_bind (advances_updateStatus hstage _)
  rintro _ rfl _
  apply advances_bind (advances_recalculate _)
  rintro _ rfl _
  exact advances_after (straight_notifySkipped input e _ _)

theorem advances_skipParty (input : SkipPartyInput) :
    Advances .untouched (· = .logged) (skipParty input) := by
  apply advances_bind (advances_reads (straight_findOwned trivial))
  rintro _ rfl found
  apply advances_bind (advances_reads (straight_requireWaiting found))
  rintro _ rfl _
  split
  · refine advances_bind (advances_reads (straight_call trivial)) ?_
    rintro _ rfl l
    split
    · exact advances_reorder _ _ _ _ _
    · exact advances_skipOut _ _
  · exact advances_skipOut _ _

theorem advances_releaseAssigned (input : CancelQueueEntryInput) (n : Nat) :
    Advances .untouched Unlogged (releaseAssigned input n) := by
  refine advances_bind (advances_reads (straight_call trivial)) ?_
  rintro _ rfl as
  change Advances .untouched Unlogged (if _ then _ else _)
  split
  · refine advances_bind (advances_call (.inl (.inr (.inr ⟨_, _, rfl⟩))) id fun _ => rfl) ?_
    rintro _ rfl _
    exact advances_mono (B := (· = .touched)) (fun _ => .inr)
      (advances_call (.inr (.inl trivial)) id fun _ => rfl)
  · exact .inl rfl

theorem advances_cancelQueueEntry (input : CancelQueueEntryInput) :
    Advances .untouched (· = .logged) (cancelQueueEntry input) := by
  apply advances_bind (advances_reads (straight_findOwned trivial))
  rintro _ rfl found
  apply advances_bind (advances_reads (straight_cancel trivial found _))
  rintro _ rfl e
  apply advances_bind (advances_releaseAssigned input _)
  intro stage hstage _
  apply advances_bind (advances_updateStatus hstage _)
  rintro _ rfl persisted
  apply advances_bind (advances_closeRanks _ _)
  rintro _ rfl _
  exact advances_after (straight_notifyCancelled input persisted)

theorem advances_atomic {p : UseCase α} {x : Except QueueError α}
    (hp : Advances .untouched (· = .logged) p) (h : Traces E.Answers p w calls x w') :
    (∀ e, x = .error e → w'.store = w.store) ↔ Uninterrupted calls := by
  have hstart : Progress w [] .untouched w := ⟨rfl, by simp⟩
  obtain ⟨stage, hends, hprogress⟩ := follows_traces (J := Progress w) progress_step hp hstart h
  rw [List.nil_append] at hprogress
  cases x with
  | ok a =>
    obtain rfl : stage = .logged := hends
    exact iff_of_true nofun hprogress.1
  | error e =>
    obtain rfl | rfl := hends
    · exact iff_of_true (fun _ _ => hprogress.1) (uninterrupted_of_unaltered hprogress.2)
    · exact ⟨fun hsame => hprogress.mp (hsame e rfl), fun hu _ _ => hprogress.mpr hu⟩

def StaffAction : Operation → Prop
  | .seatParty _ | .skipParty _ | .cancelQueueEntry _ => True
  | _ => False

/-- A staff action that rejects has left the tables as they were if and only if
no unguarded call was rejected after they had changed. -/
theorem error_atomic_iff {op : Operation} {x : Except QueueError Outcome} (hop : StaffAction op)
    (h : Traces E.Answers op.execute w calls x w') :
    (∀ e, x = .error e → w'.store = w.store) ↔ Uninterrupted calls := by
  have hmap : ∀ {β} (f : β → Outcome) (y : Except QueueError β),
      (∀ e, y.map f = .error e → w'.store = w.store) ↔ ∀ e, y = .error e → w'.store = w.store := by
    intro β f y
    cases y <;> simp [Except.map]
  cases op with
  | seatParty input =>
    obtain ⟨y, htraces, rfl⟩ := traces_map h
    exact (hmap _ y).trans (advances_atomic (advances_seatParty input) htraces)
  | skipParty input =>
    obtain ⟨y, htraces, rfl⟩ := traces_map h
    exact (hmap _ y).trans (advances_atomic (advances_skipParty input) htraces)
  | cancelQueueEntry input =>
    obtain ⟨y, htraces, rfl⟩ := traces_map h
    exact (hmap _ y).trans (advances_atomic (advances_cancelQueueEntry input) htraces)
  | _ => exact hop.elim

/-- One party waits and is seated. -/
def seatFirst (script : Script) : Transition World Executed :=
  script.execute (script.final (.empty 0) [walkIn "r" "1"]) (seatAt "r" "7" "t")

theorem seatFirst_traces (script : Script) :
    ∃ w', Traces script.env.Answers (seatAt "r" "7" "t").execute
        ((seatFirst script).before.at ((seatFirst script).before.clock + 1))
        (seatFirst script).label.calls (seatFirst script).label.result w' ∧
      (seatFirst script).after.store = w'.store :=
  ⟨_, run_traces script.reply_answers _ _, respond_store _ _⟩

/-- The look-up of the ticket is rejected. -/
def unfound : Script where
  fails
    | .findById _ => true
    | _ => false
  eta _ ahead partySize := ahead + partySize

theorem error_atomic_iff_unfound :
    (seatFirst unfound).label.result.isOk = false ∧
      ((∀ e, (seatFirst unfound).label.result = .error e →
        (seatFirst unfound).after.store = (seatFirst unfound).before.store) ↔
        Uninterrupted (seatFirst unfound).label.calls) := by
  obtain ⟨w', htraces, hstore⟩ := seatFirst_traces unfound
  have hatomic := error_atomic_iff (show StaffAction (seatAt "r" "7" "t") from trivial) htraces
  refine ⟨by decide +kernel, ?_⟩
  rw [hstore]
  exact hatomic

/-- The read a recalculation starts with is rejected. -/
def unread : Script where
  fails
    | .findActiveEntries _ => true
    | _ => false
  eta _ ahead partySize := ahead + partySize

theorem seated_and_rejected :
    ¬ ∀ (E : Env) (op : Operation) (w w' : World) (calls : Calls) (x : Except QueueError Outcome),
      StaffAction op → Traces E.Answers op.execute w calls x w' →
      ∀ e, x = .error e → w'.store = w.store := by
  intro h
  obtain ⟨w', htraces, hstore⟩ := seatFirst_traces unread
  have hrejected : (seatFirst unread).label.result.isOk = false := by decide +kernel
  have hlogged : (seatFirst unread).after.store.history.length = 2 := by decide +kernel
  have hbefore : (seatFirst unread).before.store.history.length = 1 := by decide +kernel
  cases hresult : (seatFirst unread).label.result with
  | ok a =>
    rw [hresult] at hrejected
    cases hrejected
  | error e =>
    have hsame := h unread.env (seatAt "r" "7" "t") _ w' _ _ trivial htraces e hresult
    rw [hstore, hsame] at hlogged
    exact absurd (hbefore.symm.trans hlogged) (by decide)

end SpotQueue.Atomicity
