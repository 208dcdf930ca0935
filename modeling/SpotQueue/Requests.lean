import SpotQueue.Stewardship

namespace SpotQueue.Requests

open SpotQueue.Entity SpotQueue.Repository SpotQueue.Environment SpotQueue.Recalculator
open SpotQueue.UseCases SpotQueue.Guards SpotQueue.Recalculation SpotQueue.Registration
open SpotQueue.StoreChanges
open SpotQueue.Awaits.AsyncProgram SpotQueue.Awaits.AsyncProtocol

variable {op : Operation} {c : Call} {e : QueueEntry} {α β : Type}

/-- The row that a registration asks for, up to what the service adds on its own:
the id, the number, the place in the line and the dates. -/
structure AsRequested (input : RegisterQueueInput) (e : QueueEntry) : Prop where
  restaurantId : e.restaurantId = .ofText input.restaurantId
  userId : e.userId = input.userId.map .ofText
  guestName : e.guestName = trim input.guestName
  phone : e.phone = trim input.guestPhone
  partySize : e.partySize = input.partySize
  specialNotes : e.specialNotes = truthy (input.specialNotes.map trim)
  fid : e.fid = input.fid
  registrationType : e.registrationType = resolvedType input

/-- The user an operation looks up. -/
def customer : Operation → Option String
  | .register input => input.userId
  | _ => none

/-- What an operation may ask of the database: about its own ticket, its own
restaurant and its own user, and the insert of the row it was asked for. -/
def Asks (op : Operation) : Call → Prop
  | .findById q | .findActiveTableAssignments q | .releaseTableAssignments q => op.queueEntryId = some q
  | .findActiveEntries r | .getRegistrationMetrics r | .countPeopleAheadAtJoin r _
  | .findActiveByPhone r _ => r = op.restaurantId
  | .findActiveByUserId userId => customer op = some userId
  | .createWithHistory e _ => ∃ input, op = .register input ∧ AsRequested input e
  | _ => True

/-- What it may ask once its ticket is found: the ticket is looked up only once. -/
def Proceeds (op : Operation) : Call → Prop
  | .findById _ => False
  | c => Asks op c

/-- Calls that any operation may make with any argument. -/
def Free : Call → Prop
  | .findById _ | .findActiveTableAssignments _ | .releaseTableAssignments _ | .findActiveEntries _
  | .getRegistrationMetrics _ | .countPeopleAheadAtJoin _ _ | .findActiveByPhone _ _
  | .findActiveByUserId _ | .createWithHistory _ _ => False
  | _ => True

theorem free_proceeds (hc : Free c) : Proceeds op c := by
  cases c <;> first | exact hc.elim | trivial

theorem proceeds_free (hc : Free c) : Issues (Proceeds op) (ask c) := issues_call (free_proceeds hc)

theorem tells_proceeds (hc : Tells c) : Proceeds op c := by
  obtain rfl | hc := hc
  · trivial
  · cases c <;> first | exact hc.elim | trivial

theorem proceeds_tells {p : UseCase α} (hp : Issues Tells p) : Issues (Proceeds op) p :=
  issues_mono (fun _ => tells_proceeds) hp

theorem proceeds_asks (hc : Proceeds op c) : Asks op c := by
  cases c <;> first | exact hc | exact hc.elim

theorem proceeds_recalculate (op : Operation) : Issues (Proceeds op) (recalculate op.restaurantId) :=
  issues_realigning rfl (fun _ _ => trivial) (fun _ => trivial) fun _ => tells_proceeds

theorem proceeds_closeRanks (op : Operation) (q : String) :
    Issues (Proceeds op) (closeRanks q op.restaurantId) :=
  issues_bind (proceeds_tells (tells_removeLiveEntry q)) fun _ => proceeds_recalculate op

theorem proceeds_checkAdmission (input : RegisterQueueInput) :
    Issues (Proceeds (.register input)) (checkAdmission input) :=
  issues_admission trivial trivial rfl fun _ huserId => huserId

theorem proceeds_registerQueue (input : RegisterQueueInput) :
    Issues (Proceeds (.register input)) (registerQueue input) := by
  refine issues_bind (proceeds_checkAdmission input) fun _ =>
    issues_bind (issues_call rfl) fun metrics => issues_bind (proceeds_free trivial) fun minutes => issues_bind (proceeds_free trivial) fun id =>
    issues_bind (proceeds_free trivial) fun now => issues_bind (issues_call ?_) fun persisted => ?_
  · exact ⟨input, rfl, rfl, rfl, rfl, rfl, rfl, rfl, rfl, rfl⟩
  · refine issues_bind (issues_bind (issues_attempt ?_ fun _ => issues_pure _) fun _ => ?_) fun _ =>
      issues_pure _
    · exact proceeds_tells (tells_saveLiveEntry _ _ _ _)
    · exact issues_attempt (proceeds_free trivial) fun _ => issues_pure _

/-- The body looks its ticket up, and asks for it no more. -/
def LooksUp (op : Operation) (p : UseCase α) : Prop :=
  ∃ q f, op.queueEntryId = some q ∧ p = findOwned op.restaurantId q >>= f ∧
    ∀ found, Issues (Proceeds op) (f found)

theorem looksUp_map {p : UseCase α} (g : α → β) (h : LooksUp op p) : LooksUp op (g <$> p) := by
  obtain ⟨q, f, hq, rfl, hf⟩ := h
  exact ⟨q, _, hq, bind_assoc _ f _, fun found => issues_bind (hf found) fun a => issues_pure (g a)⟩

theorem looksUp_asks {p : UseCase α} (h : LooksUp op p) : Issues (Asks op) p := by
  obtain ⟨q, f, hq, rfl, hf⟩ := h
  exact issues_bind (issues_straight (straight_findOwned hq)) fun found =>
    issues_mono (fun _ => proceeds_asks) (hf found)

theorem looksUp_seatParty (input : SeatPartyInput) : LooksUp (.seatParty input) (seatParty input) := by
  refine ⟨_, _, rfl, rfl, fun found => ?_⟩
  refine issues_bind (issues_straight (straight_seat trivial found)) fun e =>
    issues_bind (proceeds_free trivial) fun _ => issues_bind (proceeds_free trivial) fun persisted =>
    issues_bind (proceeds_closeRanks (.seatParty input) _) fun _ => ?_
  exact issues_bind (proceeds_tells (tells_orNow _)) fun _ =>
    issues_bind (proceeds_free trivial) fun _ => issues_bind (proceeds_free trivial) fun _ => issues_pure _

theorem looksUp_assignTable (input : AssignTablesInput) :
    LooksUp (.assignTable input) (assignTable input) := by
  refine ⟨_, _, rfl, rfl, fun found => ?_⟩
  change Issues _ (if _ then _ else _)
  split
  · exact issues_throw _
  refine issues_bind (issues_attempt (issues_bind (issues_call rfl) fun _ => issues_pure _) fun _ =>
    issues_pure _) fun ahead => issues_bind (issues_straight (straight_seat trivial found)) fun e =>
    issues_bind (proceeds_free trivial) fun _ => issues_bind (proceeds_free trivial) fun persisted => ?_
  refine issues_bind (issues_attempt (proceeds_tells (tells_removeLiveEntry _)) fun _ => issues_pure _)
    fun _ => issues_bind (issues_attempt (issues_bind (proceeds_free trivial) fun _ => proceeds_free trivial)
      fun _ => issues_pure _) fun _ => issues_bind ?_ fun _ =>
    issues_bind (proceeds_tells (tells_orNow _)) fun _ => issues_pure _
  cases ahead with
  | none => exact issues_pure _
  | some n => exact issues_bind (proceeds_tells (tells_orNow _)) fun _ =>
      issues_attempt (proceeds_free trivial) fun _ => issues_pure _

theorem proceeds_notifySkipped (input : SkipPartyInput) (e : QueueEntry) (reason : String)
    (position : Option Nat) : Issues (Proceeds op) (notifySkipped input e reason position) :=
  issues_bind (proceeds_free trivial) fun _ => issues_bind (proceeds_free trivial) fun _ => issues_pure _

theorem proceeds_skipOut (input : SkipPartyInput) (found : QueueEntry) :
    Issues (Proceeds (.skipParty input)) (skipOut input found) :=
  issues_bind (issues_straight (straight_skip trivial found)) fun _ =>
    issues_bind (proceeds_free trivial) fun _ =>
    issues_bind (proceeds_closeRanks (.skipParty input) _) fun _ => proceeds_notifySkipped _ _ _ _

theorem looksUp_skipParty (input : SkipPartyInput) : LooksUp (.skipParty input) (skipParty input) := by
  refine ⟨_, _, rfl, rfl, fun found => ?_⟩
  refine issues_bind (issues_straight (straight_requireWaiting found)) fun _ => ?_
  split
  swap
  · exact proceeds_skipOut input found
  refine issues_bind (issues_call rfl) fun l => ?_
  split
  · refine issues_bind (issues_straight (straight_updatePosition trivial _ _)) fun e =>
      issues_bind (issues_batch trivial) fun _ => issues_bind (proceeds_free trivial) fun persisted =>
      issues_bind (proceeds_recalculate (.skipParty input)) fun _ => proceeds_notifySkipped _ _ _ _
  · exact proceeds_skipOut input found

theorem looksUp_cancelQueueEntry (input : CancelQueueEntryInput) :
    LooksUp (.cancelQueueEntry input) (cancelQueueEntry input) := by
  refine ⟨_, _, rfl, rfl, fun found => ?_⟩
  refine issues_bind (issues_straight (straight_cancel trivial found _)) fun e =>
    issues_bind (issues_bind (issues_call rfl) fun l => ?_) fun _ =>
    issues_bind (proceeds_free trivial) fun persisted =>
    issues_bind (proceeds_closeRanks (.cancelQueueEntry input) _) fun _ =>
    proceeds_tells (tells_notifyCancelled _ _)
  split
  · exact issues_bind (proceeds_free trivial) fun _ => issues_call rfl
  · exact issues_pure _

theorem looksUp_ringCustomer (input : RingCustomerInput) :
    LooksUp (.ringCustomer input) (ringCustomer input) := by
  refine ⟨_, _, rfl, rfl, fun found => ?_⟩
  refine issues_bind (issues_straight (straight_ring trivial found)) fun e =>
    issues_bind (proceeds_free trivial) fun _ => issues_bind ?_ fun _ =>
    issues_bind (issues_attempt (proceeds_free trivial) fun _ => issues_pure _) fun _ =>
    issues_bind (proceeds_tells (tells_orNow _)) fun _ => issues_pure _
  rw [dispatch]
  split
  · split
    · exact issues_pure _
    · exact issues_attempt (issues_bind (proceeds_free trivial) fun _ => issues_pure _) fun _ =>
        issues_pure _
  · exact issues_pure _

/-- A registration looks no ticket up, every other operation does so at the start. -/
theorem execute_proceeds (op : Operation) :
    Issues (Proceeds op) op.execute ∨ LooksUp op op.execute := by
  cases op with
  | register input => exact .inl (issues_bind (proceeds_registerQueue input) fun _ => issues_pure _)
  | seatParty input => exact .inr (looksUp_map _ (looksUp_seatParty input))
  | assignTable input => exact .inr (looksUp_map _ (looksUp_assignTable input))
  | skipParty input => exact .inr (looksUp_map _ (looksUp_skipParty input))
  | cancelQueueEntry input => exact .inr (looksUp_map _ (looksUp_cancelQueueEntry input))
  | ringCustomer input => exact .inr (looksUp_map _ (looksUp_ringCustomer input))

theorem asks_execute (op : Operation) : Issues (Asks op) op.execute :=
  (execute_proceeds op).elim (issues_mono fun _ => proceeds_asks) looksUp_asks

end SpotQueue.Requests
