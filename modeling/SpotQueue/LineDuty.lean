import SpotQueue.LinePositions

namespace SpotQueue.LineDuty

open SpotQueue.Entity SpotQueue.Repository SpotQueue.Environment SpotQueue.Recalculator
open SpotQueue.UseCases SpotQueue.Frame SpotQueue.Guards SpotQueue.Line SpotQueue.Recalculation
open SpotQueue.Seating SpotQueue.Registration SpotQueue.StoreChanges SpotQueue.RowWrites
open SpotQueue.LinePositions
open SpotQueue.Awaits.AsyncProgram SpotQueue.Awaits.AsyncProtocol

variable {r : Uuid} {c : Call} {α : Type} {l : List QueueEntry} {e : QueueEntry}

/-- How far an execution has come: what it has read of the store, and whether it
still owes its line a recalculation for what it wrote. -/
inductive Duty
  | idle
  | counted (depth : Nat)
  | holds (e : QueueEntry)
  | listed (e : QueueEntry) (l : List QueueEntry)
  | shifted (e : QueueEntry)
  | owes
  | read (l : List QueueEntry)
  | settled

/-- Calls that neither read the line nor write a row. -/
def Plain : Call → Prop
  | .findById _ | .findActiveEntries _ | .getRegistrationMetrics _ | .createWithHistory _ _
  | .assignTablesWithHistory _ _ _ _ | .updateStatusWithHistory _ | .save _
  | .batchUpdatePositions _ => False
  | _ => True

def Inert (c : Call) : Prop := rewritten c = none ∧ ∀ us, c ≠ .batchUpdatePositions us

/-- A staff use case writes the row of the party it is about. -/
def Departs (r : Uuid) : Call → Prop
  | .assignTablesWithHistory e _ _ _ => WellPlaced r e
  | .updateStatusWithHistory params => WellPlaced r params.queueEntry
  | _ => False

/-- A recalculation that read a line out of order has to write it. -/
def Owing : Duty → Prop
  | .shifted _ | .owes => True
  | .read l => ¬ Numbered l
  | _ => False

def duties (r : Uuid) : Protocol Call Answer QueueError Duty where
  allows
    | .idle, c => Plain c ∨ (∃ q, c = .findById q) ∨
        ∃ q, c = .getRegistrationMetrics q ∧ .ofText q = r
    | .counted depth, c => Plain c ∨ ∃ e changedBy, c = .createWithHistory e changedBy ∧
        e.restaurantId = r ∧ e.status = .waiting ∧ e.position = some (depth + 1)
    | .holds _, c => Plain c ∨ (∃ q, c = .findActiveEntries q) ∨ Departs r c
    | .listed _ l, c => Plain c ∨ (∃ us, c = .batchUpdatePositions us ∧
        ∀ u ∈ us, u.id ∈ l.map (·.id)) ∨ Departs r c
    | .shifted e, c => ∃ params, c = .updateStatusWithHistory params ∧
        params.queueEntry.id = e.id ∧ WellPlaced r params.queueEntry
    | .owes, c => Plain c ∨ ∃ q, c = .findActiveEntries q ∧ .ofText q = r
    | .read l, c => Plain c ∨ (∃ etas, etas.length = l.length ∧
        c = .batchUpdatePositions (recalculation l etas)) ∨ Numbered l ∧ Inert c
    | .settled, c => Inert c
  expects
    | .shifted _, _, x | .owes, _, x | .read _, _, x => ∃ a, x = .ok a
    | _, _, _ => True
  next
    | .idle, .findById _, .ok (some e) => .holds e
    | .idle, .getRegistrationMetrics _, .ok metrics => .counted metrics.queueDepth
    | .counted _, .createWithHistory _ _, .ok _ => .settled
    | .holds e, .findActiveEntries _, .ok l => .listed e l
    | .holds _, .assignTablesWithHistory _ _ _ _, .ok _ => .owes
    | .holds _, .updateStatusWithHistory _, .ok _ => .owes
    | .listed e _, .batchUpdatePositions _, .ok _ => .shifted e
    | .listed _ _, .assignTablesWithHistory _ _ _ _, .ok _ => .owes
    | .listed _ _, .updateStatusWithHistory _, .ok _ => .owes
    | .shifted _, .updateStatusWithHistory _, .ok _ => .owes
    | .owes, .findActiveEntries _, .ok l => .read l
    | .read _, .findActiveEntries _, _ => .settled
    | .read _, .batchUpdatePositions _, .ok _ => .settled
    | duty, _, _ => duty

/-- Nothing is owed at the end of an execution. -/
def Paid (duty : Duty) (_ : Except QueueError α) : Prop := ¬ Owing duty

theorem next_plain {duty : Duty} {x : Except QueueError (Answer c)} (hc : Plain c) :
    (duties r).next duty c x = duty := by
  cases c <;> first | exact hc.elim | cases duty <;> rfl

/-- Right after the batch of a reordering its status row is all there is to write. -/
def Free : Duty → Prop
  | .shifted _ => False
  | _ => True

theorem allows_plain {duty : Duty} (hc : Plain c) (hduty : Free duty) :
    (duties r).allows duty c := by
  cases duty with
  | shifted e => exact hduty.elim
  | settled => cases c <;> first | exact hc.elim | exact ⟨rfl, nofun⟩
  | _ => exact .inl hc

theorem follows_plain {duty : Duty} {p : UseCase α} (hp : Issues Plain p)
    (hduty : Free duty) : Follows (duties r) (fun duty' _ => duty' = duty) duty p :=
  follows_issues hp fun _ hc => ⟨allows_plain hc hduty, fun _ _ => next_plain hc⟩

theorem inert_quiet (hc : Quiet c) : Inert c :=
  ⟨quiet_rewritten hc, by rintro us rfl; exact hc.elim id id⟩

/-- The line is up to date as far as this execution is concerned. -/
def Tended (duty : Duty) : Prop := duty = .settled ∨ ∃ l, Numbered l ∧ duty = .read l

theorem tended_paid {duty : Duty} {x : Except QueueError α} (h : Tended duty) : Paid duty x := by
  obtain rfl | ⟨l, hl, rfl⟩ := h
  · exact id
  · exact not_not.mpr hl

theorem next_read {x : Except QueueError (Answer c)} (hc : Inert c) :
    (duties r).next (.read l) c x = .settled ∨ (duties r).next (.read l) c x = .read l := by
  cases c with
  | findActiveEntries => exact .inl rfl
  | batchUpdatePositions us => exact (hc.2 us rfl).elim
  | _ => exact .inr rfl

theorem follows_tended {duty : Duty} {p : UseCase α} (hp : Issues Quiet p) (hduty : Tended duty) :
    Follows (duties r) (fun duty _ => Tended duty) duty p := by
  refine follows_within hp (fun duty c hduty hc => ?_) hduty
  obtain rfl | ⟨l, hl, rfl⟩ := hduty
  · exact ⟨inert_quiet hc, fun _ _ => .inl rfl⟩
  · refine ⟨.inr (.inr ⟨hl, inert_quiet hc⟩), fun x _ => ?_⟩
    obtain hnext | hnext := next_read (x := x) (inert_quiet hc)
    · exact .inl hnext
    · exact .inr ⟨l, hl, hnext⟩

theorem numbered_of_deltas_nil {etas : List Nat} (hlen : etas.length = l.length)
    (hnil : deltas (entryInputs 0 0 l) etas = []) : Numbered l := by
  intro j e hj
  have hlt : j < etas.length := hlen ▸ (List.getElem?_eq_some_iff.mp hj).1
  by_contra hne
  have hmem := mem_deltas.mpr ⟨j, e, etas[j], hj, List.getElem?_eq_getElem hlt, .inl hne, rfl⟩
  rw [hnil] at hmem
  cases hmem

theorem yields_predictEtas (q : String) (inputs : List EntryInput) :
    Yields (fun etas => etas.length = inputs.length) (predictEtas q inputs) := by
  induction inputs with
  | nil => exact yields_pure rfl
  | cons input inputs ih =>
    exact yields_then fun m => yields_bind ih fun etas hlen => yields_pure (congrArg (· + 1) hlen)

/-- Reading the line, nothing is rejected. -/
theorem follows_predictEtas (q : String) (l : List QueueEntry) :
    Follows (duties r) (fun duty x => match x with
      | .ok etas => duty = .read l ∧ etas.length = l.length
      | .error _ => False) (.read l) (predictEtas q (entryInputs 0 0 l)) := by
  have hstraight : Straight Plain False (predictEtas q (entryInputs 0 0 l)) :=
    straight_gather fun _ => straight_call trivial
  refine follows_mono (fun duty x h => ?_) (follows_yields (follows_straight (m := .read l)
    (P := duties r) hstraight fun c hc => ⟨allows_plain hc trivial, fun _ _ => next_plain hc⟩)
    (yields_predictEtas q _))
  obtain err | etas := x
  · obtain ⟨-, hf⟩ | ⟨c, err, -, ⟨a, ha⟩, -⟩ := h.1
    · exact hf
    · cases ha
  · exact ⟨h.1, by simpa using h.2 etas rfl⟩

theorem follows_recalculate {q : String} (hq : .ofText q = r) :
    Follows (duties r) (fun duty _ => Tended duty) .owes (recalculate q) := by
  refine follows_call_bind (.inr ⟨q, rfl, hq⟩) (fun l _ => ?_) fun err herr => ?_
  swap
  · obtain ⟨a, ha⟩ := herr
    cases ha
  change Follows _ _ (Duty.read l) (if _ then _ else _)
  split
  · rename_i hempty
    rw [List.isEmpty_iff] at hempty
    subst hempty
    exact .inr ⟨[], by simp [Numbered], rfl⟩
  refine follows_bind (follows_predictEtas q l) (fun duty etas h => ?_) fun duty err h => h.elim
  obtain ⟨rfl, hlen⟩ := h
  change Follows _ _ _ (if _ then _ else _)
  split
  · rename_i hempty
    exact .inr ⟨l, numbered_of_deltas_nil hlen (List.isEmpty_iff.mp hempty), rfl⟩
  rename_i hempty
  have hbatch : Recalculator.batchUpdatePositions (recalculation l etas) =
      ask (.batchUpdatePositions (recalculation l etas)) := by
    rw [Recalculator.batchUpdatePositions, if_neg]
    simpa [recalculation] using hempty
  change Follows _ _ _ (Recalculator.batchUpdatePositions (recalculation l etas) >>= _)
  rw [hbatch]
  refine follows_call_bind (.inr (.inl ⟨etas, hlen, rfl⟩)) (fun _ _ => ?_) fun err herr => ?_
  · exact follows_bind (follows_tended (issues_report _ _) (.inl rfl)) (fun duty _ h => h)
      fun duty err h => h
  · obtain ⟨a, ha⟩ := herr
    cases ha

theorem follows_closeRanks {q q' : String} {rest : PositionRecalculationResult → UseCase α}
    (hq : .ofText q' = r) (hrest : ∀ res, Issues Quiet (rest res)) :
    Follows (duties r) Paid .owes (closeRanks q q' >>= rest) := by
  have hremove : Issues Plain (removeLiveEntry q) :=
    issues_attempt (issues_call trivial) fun _ => issues_pure _
  have hresolves : Resolves (removeLiveEntry q) := resolves_attempt _ fun _ => resolves_pure _
  rw [closeRanks, bind_assoc]
  refine follows_bind (follows_resolves (follows_plain hremove trivial) hresolves) (fun duty _ h => ?_)
    fun duty err h => ?_
  swap
  · obtain ⟨-, a, ha⟩ := h
    cases ha
  obtain ⟨rfl, -⟩ := h
  refine follows_bind (follows_recalculate hq) (fun duty res h => ?_) fun duty err h => tended_paid h
  exact follows_mono (fun duty x h => tended_paid h) (follows_tended (hrest res) h)

theorem follows_findOwned {q q' : String} (hq : .ofText q' = r) :
    Follows (duties r) (fun duty x => match x with
      | .ok e => duty = .holds e ∧ e.restaurantId = r
      | .error _ => ¬ Owing duty) .idle (findOwned q' q) := by
  refine ⟨.inr (.inl ⟨q, rfl⟩), fun x _ => ?_⟩
  obtain err | o := x
  · exact id
  cases o with
  | none => exact id
  | some e =>
    change Follows _ _ (Duty.holds e) (if _ then _ else _)
    split
    · exact id
    · rename_i howned
      exact ⟨rfl, by rw [← hq, ← not_not.mp howned, Uuid.ofText_text]⟩

/-- The party's row is in hand, and nothing is written yet. -/
def Holding : Duty → Prop
  | .holds _ | .listed _ _ => True
  | _ => False

theorem holding_free {duty : Duty} (h : Holding duty) : Free duty := by
  cases duty <;> first | exact h.elim | trivial

theorem holding_paid {duty : Duty} {x : Except QueueError α} (h : Holding duty) : Paid duty x := by
  cases duty <;> first | exact h.elim | exact id

theorem allows_departs {duty : Duty} (hduty : Holding duty) (hc : Departs r c) :
    (duties r).allows duty c := by
  cases duty with
  | holds e => exact .inr (.inr hc)
  | listed e l => exact .inr (.inr hc)
  | _ => exact hduty.elim

theorem next_departs {duty : Duty} {a : Answer c} (hduty : Holding duty) (hc : Departs r c) :
    (duties r).next duty c (.ok a) = .owes := by
  cases duty with
  | holds e => cases c <;> first | exact hc.elim | rfl
  | listed e l => cases c <;> first | exact hc.elim | rfl
  | _ => exact hduty.elim

theorem next_departs_rejected {duty : Duty} {err : QueueError} (hduty : Holding duty)
    (hc : Departs r c) : (duties r).next duty c (.error err) = duty := by
  cases duty with
  | holds e => cases c <;> first | exact hc.elim | rfl
  | listed e l => cases c <;> first | exact hc.elim | rfl
  | _ => exact hduty.elim

theorem follows_depart {duty : Duty} {rest : Answer c → UseCase α} (hduty : Holding duty)
    (hc : Departs r c) (hrest : ∀ a, Follows (duties r) Paid .owes (rest a)) :
    Follows (duties r) Paid duty (ask c >>= rest) := by
  refine follows_call_bind (allows_departs hduty hc) (fun a _ => ?_) fun err _ => ?_
  · rw [next_departs hduty hc]
    exact hrest a
  · rw [next_departs_rejected hduty hc]
    exact holding_paid hduty

/-- A guard on the row in hand: what it makes of it, with the hand as it was. -/
theorem follows_guard {β : Type} {duty : Duty} {R : β → Prop} {p : UseCase β} {f : β → UseCase α}
    (hduty : Holding duty) (hp : Straight Plain True p) (hy : Yields R p)
    (hf : ∀ b, R b → Follows (duties r) Paid duty (f b)) :
    Follows (duties r) Paid duty (p >>= f) := by
  refine follows_bind (follows_yields (follows_plain (issues_straight hp) (holding_free hduty)) hy)
    (fun duty' b h => ?_) fun duty' err h => ?_
  · obtain ⟨rfl, hb⟩ := h
    exact hf b (hb b rfl)
  · obtain ⟨rfl, -⟩ := h
    exact holding_paid hduty

theorem follows_found {q q' : String} {f : QueueEntry → UseCase α} (hq : .ofText q' = r)
    (hf : ∀ found, found.restaurantId = r → Follows (duties r) Paid (.holds found) (f found)) :
    Follows (duties r) Paid .idle (findOwned q' q >>= f) := by
  refine follows_bind (follows_findOwned hq) (fun duty found h => ?_) fun duty err h => h
  obtain ⟨rfl, hr⟩ := h
  exact hf found hr

theorem follows_aside {β : Type} {duty : Duty} {p : UseCase β} {f : β → UseCase α} (hduty : Holding duty)
    (hp : Issues Plain p) (hf : ∀ b, Follows (duties r) Paid duty (f b)) :
    Follows (duties r) Paid duty (p >>= f) := by
  refine follows_bind (follows_plain hp (holding_free hduty)) (fun duty' b h => ?_) fun duty' err h => ?_
  · subst h
    exact hf b
  · subst h
    exact holding_paid hduty

theorem follows_seatParty {input : SeatPartyInput} (hr : .ofText input.restaurantId = r) :
    Follows (duties r) Paid .idle (seatParty input) := by
  refine follows_found hr fun found hfound => follows_guard trivial (straight_seat trivial found)
    (yields_seat found) fun e he => follows_aside trivial (issues_call trivial) fun _ => ?_
  obtain ⟨-, a, b, rfl⟩ := he
  exact follows_depart trivial ⟨hfound, fun _ => rfl⟩ fun persisted =>
    follows_closeRanks hr fun _ => issues_notifySeated _ _

theorem follows_skipOut {input : SkipPartyInput} {found : QueueEntry} {duty : Duty}
    (hr : .ofText input.restaurantId = r) (hfound : found.restaurantId = r) (hduty : Holding duty) :
    Follows (duties r) Paid duty (skipOut input found) := by
  apply follows_guard hduty (straight_skip trivial found) (yields_skip found)
  intro e he
  obtain ⟨-, a, rfl⟩ := he
  exact follows_depart hduty ⟨hfound, fun _ => rfl⟩ fun persisted =>
    follows_closeRanks hr fun _ => issues_notifySkipped _ _ _ _

theorem follows_cancelQueueEntry {input : CancelQueueEntryInput}
    (hr : .ofText input.restaurantId = r) :
    Follows (duties r) Paid .idle (cancelQueueEntry input) := by
  have hrelease : ∀ n, Issues Plain (releaseAssigned input n) := by
    intro n
    apply issues_bind (issues_call trivial)
    intro l
    split
    · exact issues_bind (issues_call trivial) fun _ => issues_call trivial
    · exact issues_pure _
  refine follows_found hr fun found hfound => follows_guard trivial (straight_cancel trivial found _)
    (yields_cancel found _) fun e he => follows_aside trivial (hrelease _) fun _ => ?_
  obtain ⟨-, a, b, rfl⟩ := he
  exact follows_depart trivial ⟨hfound, fun _ => rfl⟩ fun persisted =>
    follows_closeRanks hr fun _ => issues_notifyCancelled _ _

theorem follows_shifted {found : QueueEntry} {params : UpdateStatusWithHistoryParams}
    {q : String} {rest : PositionRecalculationResult → UseCase α} (hq : .ofText q = r)
    (hid : params.queueEntry.id = found.id) (hplaced : WellPlaced r params.queueEntry)
    (hrest : ∀ res, Issues Quiet (rest res)) :
    Follows (duties r) Paid (.shifted found) (do
      let _ ← ask (.updateStatusWithHistory params)
      let res ← recalculate q
      rest res) := by
  refine follows_call_bind ⟨params, rfl, hid, hplaced⟩ (fun _ _ => ?_) fun err herr => ?_
  swap
  · obtain ⟨a, ha⟩ := herr
    cases ha
  refine follows_bind (follows_recalculate hq) (fun duty res h => ?_) fun duty err h => tended_paid h
  exact follows_mono (fun duty x h => tended_paid h) (follows_tended (hrest res) h)

theorem splice_mem {i target : Nat} {d : QueueEntry} (hd : d ∈ splice l i target) : d ∈ l := by
  rw [splice] at hd
  split at hd
  · rename_i e he
    obtain rfl | hd := List.eq_or_mem_of_mem_insertIdx hd
    · exact List.mem_of_getElem? he
    · exact List.mem_of_mem_eraseIdx hd
  · exact hd

theorem follows_reorder {input : SkipPartyInput} {found : QueueEntry} {k i : Nat}
    (hr : .ofText input.restaurantId = r) (hfound : found.restaurantId = r)
    (hw : found.status = .waiting) (hi : i < l.length) :
    Follows (duties r) Paid (.listed found l) (reorder input found k l i) := by
  refine follows_guard trivial (straight_updatePosition trivial found _)
    (yields_updatePosition found _) fun e he => ?_
  have hsame : e.id = found.id ∧ e.restaurantId = found.restaurantId ∧ e.status = found.status := by
    obtain rfl | ⟨a, rfl⟩ := he <;> exact ⟨rfl, rfl, rfl⟩
  have hplaced : WellPlaced r e :=
    ⟨hsame.2.1.trans hfound, fun hne => (hne (hsame.2.2.trans hw)).elim⟩
  have hbatch : Recalculator.batchUpdatePositions
      (reorderUpdates (splice l i (targetIndex l i k))) =
        ask (.batchUpdatePositions (reorderUpdates (splice l i (targetIndex l i k)))) := by
    rw [Recalculator.batchUpdatePositions, if_neg]
    have hne : splice l i (targetIndex l i k) ≠ [] := by
      rw [splice, List.getElem?_eq_getElem hi]
      refine List.ne_nil_of_mem (a := l[i]) ((List.mem_insertIdx ?_).mpr (.inl rfl))
      rw [List.length_eraseIdx_of_lt hi, targetIndex]
      omega
    simpa [reorderUpdates] using hne
  rw [hbatch]
  refine follows_call_bind (.inr (.inl ⟨_, rfl, fun u hu => ?_⟩)) (fun _ _ => ?_) fun err _ => id
  · have hmem : u.id ∈ _ := List.mem_map_of_mem hu
    rw [reorderUpdates_ids] at hmem
    obtain ⟨d, hd, hid⟩ := List.mem_map.mp hmem
    exact hid ▸ List.mem_map_of_mem (splice_mem hd)
  · exact follows_shifted hr hsame.1 hplaced fun _ => issues_notifySkipped _ _ _ _

theorem follows_skipParty {input : SkipPartyInput} (hr : .ofText input.restaurantId = r) :
    Follows (duties r) Paid .idle (skipParty input) := by
  refine follows_found hr fun found hfound => follows_guard trivial (straight_requireWaiting found)
    (yields_requireWaiting found) fun _ hw => ?_
  split
  swap
  · exact follows_skipOut hr hfound trivial
  rename_i k
  refine follows_call_bind (.inr (.inl ⟨_, rfl⟩)) (fun l _ => ?_) fun err _ => id
  split
  · rename_i i hindex
    obtain ⟨hi, -⟩ := List.findIdx?_eq_some_iff_getElem.mp hindex
    exact follows_reorder hr hfound hw hi
  · exact follows_skipOut hr hfound trivial

theorem admission_plain (hc : Admission c) : Plain c := by
  cases c <;> first | exact hc.elim | trivial

theorem follows_create {input : RegisterQueueInput} {metrics : RegistrationMetrics} {minutes : Nat}
    {u : Uuid} {now : Time} (hr : .ofText input.restaurantId = r) :
    Follows (duties r) Paid (.counted metrics.queueDepth) (do
      let persisted ← ask (.createWithHistory (ticket input metrics minutes u now) (changedBy input))
      announce input (metrics.queueDepth + 1) minutes persisted
      return toOutputDTO persisted) := by
  refine follows_call_bind (.inr ⟨_, _, rfl, hr, rfl, rfl⟩) (fun persisted _ => ?_) fun err _ => id
  have hannounce := issues_mono (fun _ => announcement_quiet)
    (issues_announce input (metrics.queueDepth + 1) minutes persisted)
  exact follows_bind (follows_tended hannounce (.inl rfl)) (fun duty _ h => tended_paid h)
    fun duty err h => tended_paid h

theorem follows_registerQueue {input : RegisterQueueInput} (hr : .ofText input.restaurantId = r) :
    Follows (duties r) Paid .idle (registerQueue input) := by
  have hplain : ∀ {β : Type} {p : UseCase β} {f : β → UseCase RegisterQueueOutput} {duty : Duty},
      Issues Plain p → Free duty → ¬ Owing duty → (∀ b, Follows (duties r) Paid duty (f b)) →
      Follows (duties r) Paid duty (p >>= f) := by
    intro β p f duty hp hfree hpaid hf
    refine follows_bind (follows_plain hp hfree) (fun duty' b h => ?_) fun duty' err h => ?_
    · subst h
      exact hf b
    · subst h
      exact hpaid
  refine hplain (issues_mono (fun _ => admission_plain) (issues_checkAdmission input)) trivial id
    fun _ => ?_
  refine follows_call_bind (.inr (.inr ⟨_, rfl, hr⟩)) (fun metrics _ => ?_) fun err _ => id
  exact hplain (issues_call trivial) trivial id fun minutes =>
    hplain (issues_call trivial) trivial id fun u => hplain (issues_call trivial) trivial id fun now =>
      follows_create hr

/-- The operations that change the line of their restaurant as a whole. -/
def Settles : Operation → Prop
  | .register _ | .seatParty _ | .skipParty _ | .cancelQueueEntry _ => True
  | _ => False

theorem follows_execute {op : Operation} (hop : Settles op) (hr : .ofText op.restaurantId = r) :
    Follows (duties r) Paid .idle op.execute := by
  have hmap : ∀ {α : Type} {f : α → Outcome} {p : UseCase α}, Follows (duties r) Paid .idle p →
      Follows (duties r) Paid .idle (f <$> p) := fun hp =>
    follows_bind hp (fun _ _ h => h) fun _ _ h => h
  cases op with
  | register input => exact hmap (follows_registerQueue hr)
  | seatParty input => exact hmap (follows_seatParty hr)
  | skipParty input => exact hmap (follows_skipParty hr)
  | cancelQueueEntry input => exact hmap (follows_cancelQueueEntry hr)
  | assignTable | ringCustomer => exact hop.elim

end SpotQueue.LineDuty
