import SpotQueue.RowWrites
import SpotQueue.Simulation
import Mathlib.Data.Fintype.Card
import Mathlib.Data.Finset.Card

namespace SpotQueue.RingCount

open SpotQueue.Entity SpotQueue.Repository SpotQueue.Environment SpotQueue.Recalculator
open SpotQueue.UseCases SpotQueue.Frame SpotQueue.Guards SpotQueue.Line SpotQueue.Recalculation
open SpotQueue.Seating SpotQueue.StoreChanges SpotQueue.RowWrites SpotQueue.Simulation
open SpotQueue.Awaits.AsyncProgram SpotQueue.Awaits.AsyncProtocol SpotQueue.Awaits.LabelledRun
open SpotQueue.Awaits.AsyncPool

variable {ι : Type} [DecidableEq ι] {E : Env} {w w' : World} {s s' : Store} {id : Uuid}
  {e : QueueEntry} {c : Call} {α : Type}

/-- What may run beside a ring: other rings, parties moved down, recalculations. -/
inductive Job
  | ring (input : RingCustomerInput)
  | skip (input : SkipPartyInput)
  | recalculate (restaurantId : String)

def Job.body : Job → UseCase (Option RingCustomerOutput)
  | .ring input => some <$> ringCustomer input
  | .skip input => (fun _ => none) <$> skipParty input
  | .recalculate restaurantId => (fun _ => none) <$> Recalculator.recalculate restaurantId

abbrev Jobs (ι : Type) := Pool ι Call Answer QueueError (Option RingCustomerOutput) World

abbrev JobSchedule (ι : Type) := Schedule ι Call Answer QueueError (Option RingCustomerOutput) World

def atOnce (jobs : ι → Job) (w : World) : Jobs ι := ⟨fun i => (jobs i).body, w⟩

def storedCount (id : Uuid) (s : Store) : Option Nat := (s.find id).map (·.ringCount)

/-- What an execution has in hand: nothing yet, the row it has read, or a row it wrote. -/
inductive Hand
  | empty
  | holds (e : QueueEntry)
  | rang
  | wrote
deriving DecidableEq

/-- A row is read once, and what is written is that row: rung once, or with its count as read. -/
def handling (id : Uuid) : Protocol Call Answer QueueError Hand where
  allows
    | .holds e, c => rewritten c = none ∨ (e.id = id ∧ ∃ a b, c = .save (e.rung a b)) ∨
        ∃ params, c = .updateStatusWithHistory params ∧ params.queueEntry.id = e.id ∧
          params.queueEntry.ringCount = e.ringCount
    | _, c => rewritten c = none
  expects
    | _, .findById q, .ok (some e) => e.id = .ofText q
    | _, _, _ => True
  next
    | .empty, .findById _, .ok (some e) => .holds e
    | .holds _, .save _, .ok _ => .rang
    | .holds _, .updateStatusWithHistory _, .ok _ => .wrote
    | hand, _, _ => hand

/-- An execution has returned from ringing exactly if it has rung. -/
def Ended (hand : Hand) (x : Except QueueError (Option RingCustomerOutput)) : Prop :=
  (∃ output, x = .ok (some output)) ↔ hand = .rang

theorem follows_kept {hand : Hand} {p : UseCase α} (hp : Issues (fun c => rewritten c = none) p)
    (hhand : hand ≠ .empty) : Follows (handling id) (fun hand' _ => hand' = hand) hand p := by
  refine follows_issues hp fun c hc => ⟨?_, fun x _ => ?_⟩
  · cases hand with
    | holds e => exact .inl hc
    | _ => exact hc
  · cases hand with
    | empty => exact (hhand rfl).elim
    | holds e => cases c <;> first | rfl | cases hc
    | _ => rfl

theorem follows_findOwned (r q : String) :
    Follows (handling id) (fun hand x => match x with
      | .ok e => hand = .holds e ∧ e.id = .ofText q
      | .error _ => hand ≠ .rang) .empty (findOwned r q) := by
  refine ⟨rfl, fun x hx => ?_⟩
  obtain err | o := x
  · exact nofun
  cases o with
  | none => exact nofun
  | some e =>
    change Follows _ _ (Hand.holds e) (if _ then _ else _)
    split
    · exact nofun
    · exact ⟨rfl, hx⟩

theorem rewritten_reads {p : UseCase α} (hp : Issues Reads p) : Issues (fun c => rewritten c = none) p :=
  issues_mono (fun _ => reads_rewritten) hp

theorem rewritten_quiet {p : UseCase α} (hp : Issues Quiet p) : Issues (fun c => rewritten c = none) p :=
  issues_mono (fun _ => quiet_rewritten) hp

theorem rewritten_recalculate (r : String) : Issues (fun c => rewritten c = none) (recalculate r) :=
  issues_mono (fun _ => renumbers_rewritten) (issues_recalculate r)

/-- Reading and guarding leaves the hand as it is. -/
theorem follows_guard {hand : Hand} {R : α → Prop} {p : UseCase α} (hp : Issues Reads p)
    (hy : Yields R p) (hhand : hand ≠ .empty) :
    Follows (handling id) (fun hand' x => hand' = hand ∧ ∀ a, x = .ok a → R a) hand p :=
  follows_yields (follows_kept (rewritten_reads hp) hhand) hy

theorem resolves_notifyRung (found : QueueEntry) (a b : Time) (link : Option String) :
    Resolves (notifyRung (found.rung a b) link) := by
  have hdispatch : Resolves (dispatch (found.rung a b) link) := by
    rw [dispatch]
    split
    · split
      · exact resolves_pure _
      · exact resolves_attempt _ fun _ => resolves_pure _
    · exact resolves_pure _
  exact resolves_bind hdispatch fun _ => resolves_bind (resolves_attempt _ fun _ => resolves_pure _)
    fun _ => resolves_bind (resolves_pure a : Resolves (orNow (some a))) fun _ => resolves_pure _

/-- A body ends either before its write, rejected, or after it, with a result. -/
def Rings (hand : Hand) (x : Except QueueError α) : Prop := (∃ a, x = .ok a) ↔ hand = .rang

theorem rings_rejected {hand : Hand} {err : QueueError} (h : hand ≠ .rang) :
    Rings hand (.error err : Except QueueError α) :=
  ⟨nofun, fun hrang => (h hrang).elim⟩

theorem follows_rung (found : QueueEntry) (hid : found.id = id) (a b : Time) (link : Option String) :
    Follows (handling id) Rings (.holds found) (do
      ask (.save (found.rung a b))
      notifyRung (found.rung a b) link) := by
  refine follows_call_bind (.inr (.inl ⟨hid, a, b, rfl⟩)) (fun _ _ => ?_) fun err _ => ?_
  · have hkept : Follows (handling id) (fun hand _ => hand = .rang) .rang
        (notifyRung (found.rung a b) link) :=
      follows_kept (rewritten_quiet (issues_notifyRung _ _)) nofun
    exact follows_mono (fun hand x h => ⟨fun _ => h.1, fun _ => h.2⟩)
      (follows_resolves hkept (resolves_notifyRung found a b link))
  · exact rings_rejected nofun

theorem follows_ringCustomer {input : RingCustomerInput} (hid : .ofText input.queueEntryId = id) :
    Follows (handling id) Rings .empty (ringCustomer input) := by
  refine follows_bind (follows_findOwned _ _) (fun hand found h => ?_) fun hand err h => rings_rejected h
  obtain ⟨rfl, hfound⟩ := h
  refine follows_bind (follows_guard (issues_ring found) (yields_ring found) nofun)
    (fun hand e h => ?_) fun hand err h => rings_rejected (h.1 ▸ nofun)
  obtain ⟨rfl, he⟩ := h
  obtain ⟨-, a, b, rfl⟩ := he _ rfl
  exact follows_rung found (hfound.trans hid) a b _

/-- A body that never rings. -/
def RingsNot (hand : Hand) (_ : Except QueueError α) : Prop := hand ≠ .rang

theorem follows_wrote {p : UseCase α} (hp : Issues (fun c => rewritten c = none) p) :
    Follows (handling id) RingsNot .wrote p :=
  follows_mono (fun _ _ h => h ▸ nofun) (follows_kept hp nofun)

theorem follows_update {rest : QueueEntry → UseCase α} {found : QueueEntry}
    {params : UpdateStatusWithHistoryParams} (hid : params.queueEntry.id = found.id)
    (hcount : params.queueEntry.ringCount = found.ringCount)
    (hrest : ∀ e, Issues (fun c => rewritten c = none) (rest e)) :
    Follows (handling id) RingsNot (.holds found) (ask (.updateStatusWithHistory params) >>= rest) := by
  refine follows_call_bind (.inr (.inr ⟨params, rfl, hid, hcount⟩)) (fun e _ => ?_) fun err _ => ?_
  · exact follows_wrote (hrest e)
  · exact nofun

theorem follows_skipOut (input : SkipPartyInput) (found : QueueEntry) :
    Follows (handling id) RingsNot (.holds found) (skipOut input found) := by
  refine follows_bind (follows_guard (issues_skip found) (yields_skip found) nofun)
    (fun hand e h => ?_) fun hand err h => h.1 ▸ nofun
  obtain ⟨rfl, he⟩ := h
  obtain ⟨-, a, rfl⟩ := he _ rfl
  exact follows_update rfl rfl fun _ => issues_bind (issues_bind
    (rewritten_quiet (issues_removeLiveEntry _)) fun _ => rewritten_recalculate _)
    fun _ => rewritten_quiet (issues_notifySkipped _ _ _ _)

theorem follows_reorder (input : SkipPartyInput) (found : QueueEntry) (k : Nat) (l : List QueueEntry)
    (i : Nat) : Follows (handling id) RingsNot (.holds found) (reorder input found k l i) := by
  refine follows_bind (follows_guard (issues_updatePosition found _) (yields_updatePosition found _) nofun)
    (fun hand e h => ?_) fun hand err h => h.1 ▸ nofun
  obtain ⟨rfl, he⟩ := h
  have hsame : e.id = found.id ∧ e.ringCount = found.ringCount := by
    obtain rfl | ⟨a, rfl⟩ := he e rfl
    · exact ⟨rfl, rfl⟩
    · exact ⟨rfl, rfl⟩
  refine follows_bind (follows_kept (issues_batch rfl) nofun) (fun hand _ h => ?_) fun hand err h => h ▸ nofun
  subst h
  exact follows_update hsame.1 hsame.2 fun _ => issues_bind (rewritten_recalculate _)
    fun _ => rewritten_quiet (issues_notifySkipped _ _ _ _)

theorem follows_skipParty (input : SkipPartyInput) :
    Follows (handling id) RingsNot .empty (skipParty input) := by
  refine follows_bind (follows_findOwned _ _) (fun hand found h => ?_) fun hand err h => h
  obtain ⟨rfl, -⟩ := h
  refine follows_bind (follows_kept (rewritten_reads (issues_requireWaiting found)) nofun)
    (fun hand _ h => ?_) fun hand err h => h ▸ nofun
  subst h
  split
  · have hline : Follows (handling id) (fun hand _ => hand = .holds found) (.holds found)
        (ask (.findActiveEntries input.restaurantId)) := follows_kept (issues_call rfl) nofun
    refine follows_bind hline (fun hand l h => ?_) fun hand err h => h ▸ nofun
    subst h
    split
    · exact follows_reorder _ _ _ _ _
    · exact follows_skipOut _ _
  · exact follows_skipOut _ _

def Job.hand : Job → Hand
  | .recalculate _ => .wrote
  | _ => .empty

theorem follows_discarding {hand : Hand} {p : UseCase α} (hp : Follows (handling id) RingsNot hand p) :
    Follows (handling id) Ended hand ((fun _ => none) <$> p) := by
  refine follows_bind hp (fun hand a h => ?_) fun hand err h => ⟨nofun, fun hrang => (h hrang).elim⟩
  exact ⟨nofun, fun hrang => (h hrang).elim⟩

theorem job_follows {job : Job}
    (hring : ∀ input, job = .ring input → .ofText input.queueEntryId = id) :
    Follows (handling id) Ended job.hand job.body := by
  cases job with
  | ring input =>
    refine follows_bind (follows_ringCustomer (hring input rfl)) (fun hand output h => ?_)
      fun hand err h => ⟨nofun, fun hrang => nomatch h.mpr hrang⟩
    exact ⟨fun _ => h.mp ⟨output, rfl⟩, fun _ => ⟨output, rfl⟩⟩
  | skip input => exact follows_discarding (follows_skipParty input)
  | recalculate r => exact follows_discarding (follows_wrote (rewritten_recalculate r))

/-- Between reading the row and writing it, an execution loses no ring to another:
the count stored when it writes is the count stored when it read. -/
def Current (id : Uuid) (tr : JobSchedule ι) : Prop :=
  tr.Pairwise fun a b => a.label.body = b.label.body → (∃ q, a.label.call = .findById q) →
    Rewrites id b.label → storedCount id a.before.state.store = storedCount id b.before.state.store

/-- The bodies that have rung so far. -/
def rung [Fintype ι] (hands : ι → Hand) : Finset ι := Finset.univ.filter fun i => hands i = .rang

theorem rung_update_card [Fintype ι] {hands : ι → Hand} {i : ι} (h : hands i ≠ .rang) :
    (rung (Function.update hands i .rang)).card = (rung hands).card + 1 := by
  have hinsert : rung (Function.update hands i .rang) = insert i (rung hands) := by
    ext j
    by_cases hj : j = i
    · simp [rung, hj]
    · simp [rung, hj]
  rw [hinsert, Finset.card_insert_of_notMem (by simpa [rung] using h)]

theorem rung_update_same [Fintype ι] {hands : ι → Hand} {i : ι} {hand : Hand}
    (h : hand = .rang ↔ hands i = .rang) : rung (Function.update hands i hand) = rung hands := by
  ext j
  by_cases hj : j = i
  · simp [rung, hj, h]
  · simp [rung, hj]

theorem Kept.count (h : Kept s s') (id : Uuid) : storedCount id s' = storedCount id s :=
  h.column (fun e d hd => by rw [hd]) id

theorem Rewrite.count (h : Rewrite e s s') : storedCount e.id s' = some e.ringCount := by
  obtain ⟨createdAt, hrow⟩ := h.row
  rw [storedCount, hrow, Option.map_some]

theorem Rewrite.other_count (h : Rewrite e s s') (hne : id ≠ e.id) :
    storedCount id s' = storedCount id s := by
  rw [storedCount, h.others id hne, storedCount]

/-- The row in hand was stored with its count when it was read, and the stored
count is the one at the start and one for every ring so far. -/
structure Counted [Fintype ι] (id : Uuid) (n : Nat) (tr : JobSchedule ι) (hands : ι → Hand) (w : World) :
    Prop where
  read : ∀ i e, hands i = .holds e → e.id = id → ∃ step ∈ tr, step.label.body = i ∧
    (∃ q, step.label.call = .findById q) ∧ storedCount id step.before.state.store = some e.ringCount
  count : storedCount id w.store = some (n + (rung hands).card)

variable {hand : Hand} {hands : ι → Hand} {tr : JobSchedule ι} {q q' : Jobs ι} {i : ι} {n : Nat}
  {x : Except QueueError (Answer c)}

theorem handling_expects (h : E.Answers c w x w') : (handling id).expects hand c x := by
  cases c with
  | findById text =>
    obtain err | o := x
    · trivial
    · cases o with
      | none => trivial
      | some e =>
        obtain ⟨t, -, hx, -⟩ := answers_ok h
        exact (find_eq_some.mp (Except.ok.inj hx).symm).2
  | _ => trivial

section counted

variable [Fintype ι] (hcounted : Counted id n tr hands q.state)

include hcounted

theorem counted_same (hcount : storedCount id q'.state.store = storedCount id q.state.store)
    (hhand : hand = hands i) :
    Counted id n (tr ++ [⟨q, ⟨i, c, x⟩, q'⟩]) (Function.update hands i hand) q'.state := by
  rw [hhand, Function.update_eq_self]
  refine ⟨fun j e hj hid => ?_, hcount.trans hcounted.count⟩
  obtain ⟨step, hstep, hread⟩ := hcounted.read j e hj hid
  exact ⟨step, List.mem_append_left _ hstep, hread⟩

/-- Reading a row takes it in hand. -/
theorem counted_read {text : String} (hempty : hands i = .empty)
    (hstored : q.state.store.find e.id = some e)
    (hcount : storedCount id q'.state.store = storedCount id q.state.store) :
    Counted id n (tr ++ [⟨q, ⟨i, .findById text, .ok (some e)⟩, q'⟩])
      (Function.update hands i (.holds e)) q'.state := by
  constructor
  · intro j d hj hid
    by_cases hji : j = i
    · subst hji
      rw [Function.update_self] at hj
      cases hj
      refine ⟨_, List.mem_append_right _ (List.mem_singleton_self _), rfl, ⟨text, rfl⟩, ?_⟩
      rw [← hid, storedCount, hstored, Option.map_some]
    · rw [Function.update_of_ne hji] at hj
      obtain ⟨step, hstep, hread⟩ := hcounted.read j d hj hid
      exact ⟨step, List.mem_append_left _ hstep, hread⟩
  · rw [hcount, hcounted.count, rung_update_same (by simp [hempty])]

/-- Writing the row in hand leaves nothing in hand. -/
theorem counted_written (hhand : ∀ e, hand ≠ .holds e)
    (hcount : storedCount id q'.state.store =
      some (n + (rung (Function.update hands i hand)).card)) :
    Counted id n (tr ++ [⟨q, ⟨i, c, x⟩, q'⟩]) (Function.update hands i hand) q'.state := by
  refine ⟨fun j d hj hid => ?_, hcount⟩
  by_cases hji : j = i
  · subst hji
    rw [Function.update_self] at hj
    exact (hhand d hj).elim
  · rw [Function.update_of_ne hji] at hj
    obtain ⟨step, hstep, hread⟩ := hcounted.read j d hj hid
    exact ⟨step, List.mem_append_left _ hstep, hread⟩

theorem counted_kept (hc : rewritten c = none) (h : E.Answers c q.state x q'.state) :
    Counted id n (tr ++ [⟨q, ⟨i, c, x⟩, q'⟩])
      (Function.update hands i ((handling id).next (hands i) c x)) q'.state := by
  have hcount := Kept.count (kept_answers hc h) id
  cases hi : hands i with
  | empty =>
    cases c with
    | findById text =>
      obtain err | o := x
      · exact counted_same hcounted hcount hi.symm
      cases o with
      | none => exact counted_same hcounted hcount hi.symm
      | some e =>
        obtain ⟨t, -, hx, -⟩ := answers_ok h
        have hstored := (Except.ok.inj hx).symm
        have hid : e.id = .ofText text := (find_eq_some.mp hstored).2
        exact counted_read hcounted hi (hid ▸ hstored) hcount
    | _ => exact counted_same hcounted hcount hi.symm
  | holds e =>
    cases c with
    | save | updateStatusWithHistory => cases hc
    | _ => exact counted_same hcounted hcount hi.symm
  | _ => exact counted_same hcounted hcount hi.symm

omit [DecidableEq ι] in
/-- What the hand holds of the ticket is stored with the same count when it is written. -/
theorem stored_in_hand {e d : QueueEntry} {a : Answer c} (hi : hands i = .holds e) (hid : e.id = id)
    (hrow : d ∈ rewritten c) (hd : d.id = id)
    (hcurrent : Current id (tr ++ [⟨q, ⟨i, c, .ok a⟩, q'⟩])) :
    some e.ringCount = some (n + (rung hands).card) := by
  obtain ⟨step, hstep, hbody, hread, hcount⟩ := hcounted.read i e hi hid
  have hpair := (List.pairwise_append.mp hcurrent).2.2 step hstep _ (List.mem_singleton_self _)
  rw [← hcount, hpair hbody hread ⟨d, hrow, hd, a, rfl⟩]
  exact hcounted.count

theorem counted_save {e : QueueEntry} {a b : Time} {x : Except QueueError (Answer (.save (e.rung a b)))}
    (hi : hands i = .holds e) (hid : e.id = id)
    (hcurrent : Current id (tr ++ [⟨q, ⟨i, .save (e.rung a b), x⟩, q'⟩]))
    (h : E.Answers (.save (e.rung a b)) q.state x q'.state) :
    Counted id n (tr ++ [⟨q, ⟨i, .save (e.rung a b), x⟩, q'⟩])
      (Function.update hands i ((handling id).next (.holds e) (.save (e.rung a b)) x)) q'.state := by
  obtain err | u := x
  · exact counted_same hcounted (by rw [(rejected_still h).store]) hi.symm
  change Counted id n _ (Function.update hands i .rang) q'.state
  have hstored := stored_in_hand (d := e.rung a b) hcounted hi hid rfl hid hcurrent
  obtain ⟨hwritten, -⟩ := rewritten_answers (c := .save (e.rung a b)) rfl h
  apply counted_written hcounted (by simp)
  have hnew : storedCount id q'.state.store = some (e.ringCount + 1) :=
    hid ▸ Rewrite.count hwritten
  rw [hnew, rung_update_card (by simp [hi]), Option.some.inj hstored]
  rfl

theorem counted_update {e : QueueEntry} {params : UpdateStatusWithHistoryParams}
    {x : Except QueueError (Answer (.updateStatusWithHistory params))} (hi : hands i = .holds e)
    (hid : params.queueEntry.id = e.id) (hringCount : params.queueEntry.ringCount = e.ringCount)
    (hcurrent : Current id (tr ++ [⟨q, ⟨i, .updateStatusWithHistory params, x⟩, q'⟩]))
    (h : E.Answers (.updateStatusWithHistory params) q.state x q'.state) :
    Counted id n (tr ++ [⟨q, ⟨i, .updateStatusWithHistory params, x⟩, q'⟩]) (Function.update hands i
      ((handling id).next (.holds e) (.updateStatusWithHistory params) x)) q'.state := by
  obtain err | u := x
  · exact counted_same hcounted (by rw [(rejected_still h).store]) hi.symm
  change Counted id n _ (Function.update hands i .wrote) q'.state
  have hrow : rewritten (.updateStatusWithHistory params) = some params.queueEntry := rfl
  obtain ⟨hwritten, -⟩ := rewritten_answers hrow h
  apply counted_written hcounted (by simp)
  rw [rung_update_same (by simp [hi])]
  by_cases hticket : e.id = id
  · have hstored := stored_in_hand hcounted hi hticket hrow (hid.trans hticket) hcurrent
    rw [← hstored, ← hringCount, ← hticket, ← hid]
    exact Rewrite.count hwritten
  · rw [Rewrite.other_count hwritten fun h => hticket (hid.symm.trans h.symm)]
    exact hcounted.count

end counted

theorem counted_step [Fintype ι] (hallows : (handling id).allows (hands i) c)
    (hcounted : Current id tr → Counted id n tr hands q.state) (h : E.Answers c q.state x q'.state) :
    (handling id).expects (hands i) c x ∧ (Current id (tr ++ [⟨q, ⟨i, c, x⟩, q'⟩]) →
      Counted id n (tr ++ [⟨q, ⟨i, c, x⟩, q'⟩])
        (Function.update hands i ((handling id).next (hands i) c x)) q'.state) := by
  refine ⟨handling_expects h, fun hcurrent => ?_⟩
  have hcounted := hcounted (List.pairwise_append.mp hcurrent).1
  cases hi : hands i with
  | holds e =>
    rw [hi] at hallows
    obtain hc | ⟨hid, a, b, rfl⟩ | ⟨params, rfl, hid, hringCount⟩ := hallows
    · exact hi ▸ counted_kept hcounted hc h
    · exact counted_save hcounted hi hid hcurrent h
    · exact counted_update hcounted hi hid hringCount hcurrent h
  | _ =>
    rw [hi] at hallows
    exact hi ▸ counted_kept hcounted hallows h

/-- The body has returned from ringing. -/
def returned : UseCase (Option RingCustomerOutput) → Bool
  | .done (some _) => true
  | _ => false

theorem returned_iff {p : UseCase (Option RingCustomerOutput)} (hdone : Completed p)
    (h : Follows (handling id) Ended hand p) : returned p = true ↔ hand = .rang := by
  obtain ⟨o, rfl⟩ | ⟨err, rfl⟩ := hdone
  · have hend : (∃ output, Except.ok (ε := QueueError) o = .ok (some output)) ↔ hand = .rang := h
    rw [← hend]
    cases o with
    | none => exact ⟨nofun, nofun⟩
    | some output => exact ⟨fun _ => ⟨output, rfl⟩, fun _ => rfl⟩
  · have hend : (∃ output, Except.error (α := Option RingCustomerOutput) err = .ok (some output)) ↔
        hand = .rang := h
    rw [← hend]
    exact ⟨nofun, nofun⟩

/-- Where no execution writes a count that is out of date, every ring counts. -/
theorem no_ring_lost [Fintype ι] {jobs : ι → Job} {tr : JobSchedule ι}
    (hring : ∀ i input, jobs i = .ring input → .ofText input.queueEntryId = id)
    (hstart : storedCount id w.store = some n)
    (hrun : Run (Interleaves E.Answers) (atOnce jobs w) tr q)
    (hdone : ∀ i, Completed (q.bodies i)) (hcurrent : Current id tr) :
    storedCount id q.state.store =
      some (n + (Finset.univ.filter fun i => returned (q.bodies i) = true).card) := by
  have hinit : Counted id n [] (fun i => (jobs i).hand) w := by
    refine ⟨fun i e hi => ?_, ?_⟩
    · cases hjob : jobs i <;> simp [hjob, Job.hand] at hi
    · have hnone : rung (fun i => (jobs i).hand) = ∅ := by
        rw [rung, Finset.filter_eq_empty_iff]
        intro i _
        cases jobs i <;> exact nofun
      rw [hstart, hnone, Finset.card_empty, Nat.add_zero]
  obtain ⟨hands, hbodies, hcounted⟩ := interleaves_follows (F := Ended) (P := handling id)
    (J := fun tr hands w => Current id tr → Counted id n tr hands w) (G := fun _ => True)
    (fun i => job_follows (hring i)) (fun _ => hinit)
    (fun hallows hJ hc _ => counted_step hallows hJ hc) hrun fun _ _ => trivial
  have hsame : (Finset.univ.filter fun i => returned (q.bodies i) = true) = rung hands :=
    Finset.filter_congr fun i _ => returned_iff (hdone i) (hbodies i)
  rw [hsame]
  exact (hcounted hcurrent).count

/-- One party waits, with ticket 8, and has not been rung. -/
abbrev onlineWaiting : World := smooth.final (.empty 0) [joinOnline "r" "1"]

/-- Two hosts ring the party. -/
def twoRings (_ : Bool) : Job := .ring ⟨"r", "8", "staff", none⟩

def ringing (turns : List Bool) : JobSchedule Bool × Jobs Bool :=
  interleave smooth.reply (atOnce twoRings onlineWaiting) turns

theorem ringing_run (turns : List Bool) :
    Run (Interleaves smooth.env.Answers) (atOnce twoRings onlineWaiting) (ringing turns).1
      (ringing turns).2 :=
  interleave_run smooth.reply_answers _ _

def findsById : Call → Bool
  | .findById _ => true
  | _ => false

theorem findsById_iff {c : Call} : findsById c = true ↔ ∃ q, c = .findById q := by
  cases c <;> simp [findsById]

instance (c : Call) : Decidable (∃ q, c = .findById q) := decidable_of_iff _ findsById_iff

instance (id : Uuid) (tr : JobSchedule ι) : Decidable (Current id tr) := by
  rw [Current]
  infer_instance

/-- The other ring is under way while the first, saved already, sends its notices. -/
def whileNotifying : List Bool :=
  List.replicate 4 true ++ List.replicate 6 false ++ List.replicate 6 true

theorem no_ring_lost_whileNotifying :
    storedCount (.ofText "8") (ringing whileNotifying).2.state.store =
      some (0 + (Finset.univ.filter fun i =>
        returned ((ringing whileNotifying).2.bodies i) = true).card) :=
  no_ring_lost (by rintro i _ ⟨⟩; rfl) (by decide +kernel) (ringing_run _) (by decide +kernel)
    (by decide +kernel)

/-- One ring has read the row before the other saves it. -/
def overlapping : List Bool := true :: List.replicate 5 false ++ List.replicate 4 true

theorem overlapping_rings_lost :
    ¬ ∀ (ι : Type) [DecidableEq ι] [Fintype ι] (E : Env) (jobs : ι → Job) (id : Uuid) (n : Nat)
      (w : World) (tr : JobSchedule ι) (q : Jobs ι), (∀ c, ¬ E.fails c) →
      (∀ i input, jobs i = .ring input → .ofText input.queueEntryId = id) →
      storedCount id w.store = some n → Run (Interleaves E.Answers) (atOnce jobs w) tr q →
      (∀ i, Completed (q.bodies i)) → storedCount id q.state.store =
        some (n + (Finset.univ.filter fun i => returned (q.bodies i) = true).card) := by
  intro h
  have hcount := h Bool smooth.env twoRings (.ofText "8") 0 onlineWaiting _ _
    (fun _ hf => Bool.false_ne_true hf) (by rintro i _ ⟨⟩; rfl) (by decide +kernel)
    (ringing_run overlapping) (by decide +kernel)
  have hlost : storedCount (.ofText "8") (ringing overlapping).2.state.store = some 1 := by
    decide +kernel
  have hrang : (Finset.univ.filter fun i => returned ((ringing overlapping).2.bodies i) = true).card =
      2 := by decide +kernel
  rw [hlost, hrang] at hcount
  cases hcount

end SpotQueue.RingCount
