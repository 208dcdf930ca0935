import SpotQueue.LineDuty
import SpotQueue.Simulation

namespace SpotQueue.LineSettles

open SpotQueue.Entity SpotQueue.Repository SpotQueue.Environment SpotQueue.Recalculator
open SpotQueue.UseCases SpotQueue.Frame SpotQueue.Guards SpotQueue.Line SpotQueue.Recalculation
open SpotQueue.Registration SpotQueue.RowWrites SpotQueue.LinePositions SpotQueue.LineDuty
open SpotQueue.Simulation
open SpotQueue.Awaits.AsyncProgram SpotQueue.Awaits.AsyncProtocol SpotQueue.Awaits.LabelledRun
open SpotQueue.Awaits.AsyncPool

variable {ι : Type} {E : Env} {r : Uuid} {w w' : World} {s s' : Store} {c : Call} {duty : Duty}
  {depth : Option Nat} {line : Option (List QueueEntry)}

def lineRead (l : Step ι Call Answer QueueError) : Option (List QueueEntry) :=
  match l with
  | ⟨_, .findActiveEntries _, .ok l⟩ => some l
  | _ => none

def depthRead (l : Step ι Call Answer QueueError) : Option Nat :=
  match l with
  | ⟨_, .getRegistrationMetrics _, .ok metrics⟩ => some metrics.queueDepth
  | _ => none

/-- The number of parties a registration has counted, and the line a recalculation or a
reordering has read, are those of the store it writes to. -/
def Current (r : Uuid) (depth : Option Nat) (line : Option (List QueueEntry)) (s : Store) :
    Call → Prop
  | .createWithHistory _ _ => ∀ n ∈ depth, (s.waiting r).length = n
  | .batchUpdatePositions _ => ∀ l ∈ line, Unmoved r l s
  | _ => True

/-- What an execution has in hand is what it read last. -/
def Aware (depth : Option Nat) (line : Option (List QueueEntry)) (s : Store) : Duty → Prop
  | .counted n => depth = some n
  | .holds e => Stored e.id s
  | .listed e l => Stored e.id s ∧ line = some l ∧ ∀ d ∈ l, Stored d.id s
  | .shifted e => Stored e.id s
  | .read l => line = some l ∧ ∀ d ∈ l, Stored d.id s
  | _ => True

theorem aware_mono (hstored : ∀ id, Stored id s → Stored id s') (h : Aware depth line s duty) :
    Aware depth line s' duty := by
  cases duty with
  | holds e | shifted e => exact hstored _ h
  | listed e l => exact ⟨hstored _ h.1, h.2.1, fun d hd => hstored _ (h.2.2 d hd)⟩
  | read l => exact ⟨h.1, fun d hd => hstored _ (h.2 d hd)⟩
  | _ => exact h

theorem plain_inert (hc : Plain c) : Inert c := by
  cases c <;> first | exact hc.elim | exact ⟨rfl, by simp⟩

theorem inert_entries {x : Except QueueError (Answer c)} (hc : Inert c) (h : E.Answers c w x w') :
    w'.store.entries = w.store.entries := by
  obtain err | a := x
  · rw [(rejected_still h).store]
  by_cases hquiet : Quiet c
  · rw [(answers_calm hquiet h).store]
  obtain ⟨t, -, hp⟩ := answers_ok h
  cases c with
  | assignTables | releaseTables | releaseTableAssignments =>
    obtain ⟨-, rfl⟩ := hp
    rfl
  | batchUpdatePositions us => exact (hc.2 us rfl).elim
  | createWithHistory | assignTablesWithHistory | updateStatusWithHistory | save => cases hc.1
  | redisSet | redisDel | broadcastToRestaurant | sendToTicket => exact (hquiet (.inr trivial)).elim
  | _ => exact (hquiet (.inl trivial)).elim

theorem inert_transaction (hc : Inert c) : ¬ Transaction c := by
  cases c with
  | createWithHistory | assignTablesWithHistory | updateStatusWithHistory => cases hc.1
  | batchUpdatePositions us => exact (hc.2 us rfl).elim
  | _ => exact id

theorem recalculation_mem {l : List QueueEntry} {etas : List Nat} {u : PositionUpdate}
    (hu : u ∈ recalculation l etas) : u.id ∈ l.map (·.id) :=
  (recalculation_ids l etas).subset (List.mem_map_of_mem hu)

/-- The answers an execution has to get are the ones it gets where nothing fails. -/
theorem expects_answers {x : Except QueueError (Answer c)} (hfails : ∀ c, ¬ E.fails c)
    (hallows : (duties r).allows duty c) (haware : Aware depth line w.store duty)
    (h : E.Answers c w x w') : (duties r).expects duty c x := by
  cases duty with
  | shifted e =>
    obtain ⟨params, rfl, hid, -⟩ := hallows
    exact updateStatus_resolved hfails (by rw [hid]; exact haware) h
  | owes =>
    obtain hc | ⟨q, rfl, -⟩ := hallows
    · exact resolved_answers hfails (inert_transaction (plain_inert hc)) h
    · exact resolved_answers hfails id h
  | read l =>
    obtain hc | ⟨etas, -, rfl⟩ | ⟨-, hc⟩ := hallows
    · exact resolved_answers hfails (inert_transaction (plain_inert hc)) h
    · refine batch_resolved hfails (fun u hu => ?_) h
      obtain ⟨d, hd, hid⟩ := List.mem_map.mp (recalculation_mem hu)
      exact hid ▸ haware.2 d hd
    · exact resolved_answers hfails (inert_transaction hc) h
  | _ => trivial

theorem unread_rejected (i : ι) (c : Call) (err : QueueError) :
    depthRead ⟨i, c, .error err⟩ = none ∧ lineRead ⟨i, c, .error err⟩ = none := by
  cases c <;> exact ⟨rfl, rfl⟩

theorem unread_plain (i : ι) {x : Except QueueError (Answer c)} (hc : Plain c) :
    depthRead ⟨i, c, x⟩ = none ∧ lineRead ⟨i, c, x⟩ = none := by
  cases c <;> first | exact hc.elim | exact ⟨rfl, rfl⟩

theorem next_rejected {err : QueueError} :
    (duties r).next duty c (.error err) = duty ∨ (duties r).next duty c (.error err) = .settled := by
  cases duty <;> cases c <;> first | exact .inl rfl | exact .inr rfl

theorem stored_line {q : String} {l : List QueueEntry}
    (h : E.Answers (.findActiveEntries q) w (.ok l) w') :
    IsLine w'.store (.ofText q) l ∧ ∀ d ∈ l, Stored d.id w'.store := by
  obtain ⟨t, -, ⟨l', hline, hl⟩, rfl⟩ := answers_ok h
  cases hl
  exact ⟨hline, fun d hd => List.mem_map_of_mem ((isLine_mem hline).mp hd).1⟩

theorem departs_rewritten (hc : Departs r c) : ∃ e, rewritten c = some e ∧ WellPlaced r e := by
  cases c <;> first | exact hc.elim | exact ⟨_, rfl, hc⟩

theorem aware_step (i : ι) {x : Except QueueError (Answer c)} (hallows : (duties r).allows duty c)
    (haware : Aware depth line w.store duty) (h : E.Answers c w x w') :
    Aware ((depthRead ⟨i, c, x⟩).or depth) ((lineRead ⟨i, c, x⟩).or line) w'.store
      ((duties r).next duty c x) := by
  have hkept : Aware depth line w'.store duty := aware_mono (fun _ => stored_answers h) haware
  obtain err | a := x
  · rw [(unread_rejected i c err).1, (unread_rejected i c err).2]
    have hsame : (duties r).next duty c (.error err) = duty ∨
        (duties r).next duty c (.error err) = .settled := next_rejected
    obtain hnext | hnext := hsame
    · rw [hnext]
      exact hkept
    · rw [hnext]
      trivial
  have hplain : Plain c → Aware ((depthRead ⟨i, c, .ok a⟩).or depth) ((lineRead ⟨i, c, .ok a⟩).or line)
      w'.store ((duties r).next duty c (.ok a)) := by
    intro hc
    rw [(unread_plain i hc).1, (unread_plain i hc).2, next_plain hc]
    exact hkept
  cases duty with
  | idle =>
    obtain hc | ⟨q, rfl⟩ | ⟨q, rfl, -⟩ := hallows
    · exact hplain hc
    · cases a with
      | none => trivial
      | some e =>
        obtain ⟨t, -, he, rfl⟩ := answers_ok h
        exact List.mem_map_of_mem (mem_of_find (Except.ok.inj he).symm)
    · rfl
  | counted n =>
    obtain hc | ⟨e, changedBy, rfl, -⟩ := hallows
    · exact hplain hc
    · trivial
  | holds e =>
    obtain hc | ⟨q, rfl⟩ | hc := hallows
    · exact hplain hc
    · exact ⟨hkept, rfl, (stored_line h).2⟩
    · rw [next_departs (show Holding (.holds e) from trivial) hc]
      trivial
  | listed e l =>
    obtain hc | ⟨us, rfl, -⟩ | hc := hallows
    · exact hplain hc
    · exact hkept.1
    · rw [next_departs (show Holding (.listed e l) from trivial) hc]
      trivial
  | shifted e =>
    obtain ⟨params, rfl, -⟩ := hallows
    trivial
  | owes =>
    obtain hc | ⟨q, rfl, -⟩ := hallows
    · exact hplain hc
    · exact ⟨rfl, (stored_line h).2⟩
  | read l =>
    obtain hc | ⟨etas, -, rfl⟩ | ⟨-, hc⟩ := hallows
    · exact hplain hc
    · trivial
    · cases c with
      | findActiveEntries | batchUpdatePositions => trivial
      | _ => exact hkept
  | settled =>
    have hnext : (duties r).next .settled c (.ok a) = .settled := by cases c <;> rfl
    rw [hnext]
    trivial

theorem waiting_congr (h : s'.entries = s.entries) : s'.waiting r = s.waiting r := by
  rw [Store.waiting, h, Store.waiting]

theorem inLine_congr (h : s'.entries = s.entries) : InLine r s' ↔ InLine r s := by
  rw [InLine, InLine, positions, positions, waiting_congr h]

theorem cleared_congr (h : s'.entries = s.entries) (hs : Cleared r s) : Cleared r s' := by
  rw [Cleared, h]
  exact hs

/-- The line stays in order, but for the execution that owes it a recalculation. -/
structure Tends (r : Uuid) (s s' : Store) (duty duty' : Duty) : Prop where
  cleared : Cleared r s → Cleared r s'
  line : InLine r s ∨ Owing duty → InLine r s' ∨ Owing duty'

theorem inert_step {duty' : Duty} {x : Except QueueError (Answer c)} (hc : Inert c)
    (h : E.Answers c w x w') (howing : Owing duty → InLine r w'.store ∨ Owing duty') :
    Tends r w.store w'.store duty duty' where
  cleared := cleared_congr (inert_entries hc h)
  line hline := hline.elim (fun hl => .inl ((inLine_congr (inert_entries hc h)).mpr hl)) howing

theorem rejected_step {duty' : Duty} {err : QueueError} (h : E.Answers c w (.error err) w')
    (howing : ¬ Owing duty) : Tends r w.store w'.store duty duty' := by
  rw [(rejected_still h).store]
  exact ⟨id, fun hline => .inl (hline.resolve_right howing)⟩

theorem depart_step {a : Answer c} (hholding : Holding duty) (hc : Departs r c)
    (h : E.Answers c w (.ok a) w') :
    Tends r w.store w'.store duty ((duties r).next duty c (.ok a)) := by
  obtain ⟨e, he, hplaced⟩ := departs_rewritten hc
  rw [next_departs hholding hc]
  exact ⟨cleared_rewrite hplaced (rewritten_answers he h).1, fun _ => .inr trivial⟩

theorem tends_answers {x : Except QueueError (Answer c)} (hallows : (duties r).allows duty c)
    (haware : Aware depth line w.store duty) (hexpects : (duties r).expects duty c x)
    (hcurrent : (∃ a, x = .ok a) → Current r depth line w.store c) (h : E.Answers c w x w') :
    Tends r w.store w'.store duty ((duties r).next duty c x) := by
  have hplain : Plain c → Tends r w.store w'.store duty ((duties r).next duty c x) := fun hc =>
    inert_step (plain_inert hc) h fun howing => .inr (by rwa [next_plain hc])
  cases duty with
  | idle =>
    obtain hc | ⟨q, rfl⟩ | ⟨q, rfl, -⟩ := hallows
    · exact hplain hc
    · exact inert_step ⟨rfl, by simp⟩ h False.elim
    · exact inert_step ⟨rfl, by simp⟩ h False.elim
  | counted n =>
    obtain hc | ⟨e, changedBy, rfl, hr, hw, hposition⟩ := hallows
    · exact hplain hc
    obtain err | a := x
    · exact rejected_step h id
    have hlength : (w.store.waiting r).length = n := hcurrent ⟨a, rfl⟩ n haware
    obtain ⟨-, -, -, hfresh, hv⟩ := createWithHistory_answers (still_refl w) h
    have hentries : w'.store.entries = w.store.entries ++ [e] := by rw [hv.store]; rfl
    refine ⟨cleared_joined hentries hw, fun hline => .inl ?_⟩
    exact inLine_joined hentries hr hw (hlength ▸ hposition) (hline.resolve_right id)
  | holds e =>
    obtain hc | ⟨q, rfl⟩ | hc := hallows
    · exact hplain hc
    · exact inert_step ⟨rfl, by simp⟩ h False.elim
    obtain err | a := x
    · exact rejected_step h id
    · exact depart_step trivial hc h
  | listed e l =>
    obtain hc | ⟨us, rfl, hids⟩ | hc := hallows
    · exact hplain hc
    · obtain err | a := x
      · exact rejected_step h id
      obtain ⟨t, ht⟩ := batch_answers h
      rw [ht]
      exact ⟨cleared_batch (hcurrent ⟨a, rfl⟩ l haware.2.1) hids, fun _ => .inr trivial⟩
    · obtain err | a := x
      · exact rejected_step h id
      · exact depart_step trivial hc h
  | shifted e =>
    obtain ⟨params, rfl, -, hplaced⟩ := hallows
    obtain ⟨a, rfl⟩ := hexpects
    exact ⟨cleared_rewrite hplaced (rewritten_answers rfl h).1, fun _ => .inr trivial⟩
  | owes =>
    obtain hc | ⟨q, rfl, hq⟩ := hallows
    · exact hplain hc
    obtain ⟨l, rfl⟩ := hexpects
    apply inert_step ⟨rfl, by simp⟩ h
    intro _
    have hstored := (stored_line h).1
    rw [hq] at hstored
    by_cases hnumbered : Numbered l
    · exact .inl (inLine_of_numbered hstored.perm hnumbered)
    · exact .inr hnumbered
  | read l =>
    obtain hc | ⟨etas, hlen, rfl⟩ | ⟨hnumbered, hc⟩ := hallows
    · exact hplain hc
    · obtain ⟨a, rfl⟩ := hexpects
      obtain ⟨t, ht⟩ := batch_answers h
      rw [ht]
      have hunmoved := hcurrent ⟨a, rfl⟩ l haware.1
      exact ⟨cleared_batch hunmoved fun u => recalculation_mem,
        fun _ => .inl (inLine_recalculated hunmoved hlen)⟩
    · exact inert_step hc h fun howing => (howing hnumbered).elim
  | settled => exact inert_step hallows h False.elim

variable [DecidableEq ι] {ops : ι → Operation} {q : Underway ι} {tr : Interleaving ι}

/-- The last of these answers that the execution has got. -/
def lastRead {β : Type} (f : Step ι Call Answer QueueError → Option β) (i : ι)
    (tr : Interleaving ι) : Option β :=
  tr.reverse.findSome? fun step => if step.label.body = i then f step.label else none

theorem lastRead_append {β : Type} (f : Step ι Call Answer QueueError → Option β) (i : ι)
    (tr : Interleaving ι) (step : Transition (Underway ι) (Step ι Call Answer QueueError)) :
    lastRead f i (tr ++ [step]) =
      (if step.label.body = i then f step.label else none).or (lastRead f i tr) := by
  rw [lastRead, List.reverse_append, List.findSome?_append]
  simp [lastRead]

/-- Nobody writes positions from a count or a line that has moved since it was read. -/
def Steady (r : Uuid) (tr : Interleaving ι) : Prop :=
  ∀ pre step post, tr = pre ++ step :: post → (∃ a, step.label.answer = .ok a) →
    Current r (lastRead depthRead step.label.body pre) (lastRead lineRead step.label.body pre)
      step.before.state.store step.label.call

theorem steady_before {post : Interleaving ι} (h : Steady r (tr ++ post)) : Steady r tr := by
  rintro pre step rest rfl
  exact h pre step (rest ++ post) (by simp)

/-- Everyone knows what was read last, and somebody still owes a recalculation
wherever the line is out of order. -/
structure Settling (r : Uuid) (tr : Interleaving ι) (hands : ι → Duty) (s : Store) : Prop where
  aware : ∀ i, Aware (lastRead depthRead i tr) (lastRead lineRead i tr) s (hands i)
  cleared : Steady r tr → Cleared r s
  line : Steady r tr → InLine r s ∨ ∃ i, Owing (hands i)

theorem settling_step {hands : ι → Duty} {i : ι} {x : Except QueueError (Answer c)} {q' : Underway ι}
    (hfails : ∀ c, ¬ E.fails c) (hallows : (duties r).allows (hands i) c)
    (hsettling : Settling r tr hands q.state.store) (h : E.Answers c q.state x q'.state) :
    (duties r).expects (hands i) c x ∧ Settling r (tr ++ [⟨q, ⟨i, c, x⟩, q'⟩])
      (Function.update hands i ((duties r).next (hands i) c x)) q'.state.store := by
  have haware := hsettling.aware i
  have hexpects := expects_answers hfails hallows haware h
  have htends : Steady r (tr ++ [⟨q, ⟨i, c, x⟩, q'⟩]) →
      Tends r q.state.store q'.state.store (hands i) ((duties r).next (hands i) c x) :=
    fun hsteady => tends_answers hallows haware hexpects (hsteady tr _ [] rfl) h
  refine ⟨hexpects, fun j => ?_, fun hsteady => ?_, fun hsteady => ?_⟩
  · rw [lastRead_append, lastRead_append]
    by_cases hj : j = i
    · subst hj
      simpa using aware_step j hallows haware h
    · simpa [hj, Ne.symm hj] using aware_mono (fun _ => stored_answers h) (hsettling.aware j)
  · exact (htends hsteady).cleared (hsettling.cleared (steady_before hsteady))
  · have hown : InLine r q'.state.store ∨ Owing ((duties r).next (hands i) c x) →
        InLine r q'.state.store ∨
          ∃ j, Owing (Function.update hands i ((duties r).next (hands i) c x) j) :=
      Or.imp_right fun howing => ⟨i, by simpa using howing⟩
    obtain hline | ⟨j, hj⟩ := hsettling.line (steady_before hsteady)
    · exact hown ((htends hsteady).line (.inl hline))
    · by_cases hji : j = i
      · exact hown ((htends hsteady).line (.inr (hji ▸ hj)))
      · exact .inr ⟨j, by simpa [hji] using hj⟩

/-- Operations on one restaurant, none of whose calls fails, leave its line in order
once all of them have completed, if each of them wrote the positions it wrote from the
line as it was. -/
theorem line_settles (hfails : ∀ c, ¬ E.fails c)
    (hops : ∀ i, Settles (ops i) ∧ .ofText (ops i).restaurantId = r) (hline : Orderly r w.store)
    (hrun : Run (Interleaves E.Answers) (together ops w) tr q) (hdone : ∀ i, Completed (q.bodies i))
    (hsteady : Steady r tr) : Orderly r q.state.store := by
  obtain ⟨hands, hfollows, hsettling⟩ := interleaves_follows (P := duties r) (F := Paid)
    (J := fun tr hands w => Settling r tr hands w.store) (G := fun _ => True) (m := fun _ => .idle)
    (fun i => follows_execute (hops i).1 (hops i).2)
    ⟨fun _ => trivial, fun _ => hline.others, fun _ => .inl hline.line⟩
    (fun hallows hsettling h _ => settling_step hfails hallows hsettling h) hrun fun _ _ => trivial
  refine ⟨(hsettling.line hsteady).resolve_right ?_, hsettling.cleared hsteady⟩
  rintro ⟨i, hi⟩
  have hpaid := hfollows i
  obtain ⟨a, ha⟩ | ⟨err, herr⟩ := hdone i
  · rw [ha] at hpaid
    exact hpaid hi
  · rw [herr] at hpaid
    exact hpaid hi

instance : Decidable (Current r depth line s c) := by
  apply Call.casesOn (motive := fun c => Decidable (Current r depth line s c)) c <;> intros <;>
    unfold Current <;> unfold Unmoved <;> infer_instance

theorem steady_of_turns (h : ∀ k < tr.length, ∀ step ∈ tr[k]?,
    Current r (lastRead depthRead step.label.body (tr.take k))
      (lastRead lineRead step.label.body (tr.take k)) step.before.state.store step.label.call) :
    Steady r tr := by
  rintro pre step post rfl -
  have hstep := h pre.length (by simp) step (by simp)
  rwa [List.take_left] at hstep

/-- A party registers while the one before it is seated. -/
def joinAndSeat : Bool → Operation
  | false => walkIn "r" "2"
  | true => seatAt "r" "7" "t"

/-- The seating comes between the checks of the registration and its count of the line. -/
def seatWhileJoining : List Bool :=
  List.replicate 3 false ++ List.replicate 15 true ++ List.replicate 11 false

abbrev whileJoining : Interleaving Bool × Underway Bool :=
  interleave smooth.reply (together joinAndSeat oneWaiting) seatWhileJoining

theorem line_settles_whileJoining : Orderly (.ofText "r") whileJoining.2.state.store := by
  have hops : ∀ i, Settles (joinAndSeat i) ∧ Uuid.ofText (joinAndSeat i).restaurantId = .ofText "r" := by
    intro i
    cases i <;> exact ⟨trivial, rfl⟩
  have hline : Orderly (.ofText "r") oneWaiting.store :=
    ⟨by unfold InLine; decide +kernel, by unfold Cleared; decide +kernel⟩
  exact line_settles (fun _ => Bool.false_ne_true) hops hline
    (interleave_run smooth.reply_answers _ _) (by decide +kernel)
    (steady_of_turns (by decide +kernel))

/-- Two parties register at the same time. -/
def joinTwice : Bool → Operation
  | false => walkIn "r" "1"
  | true => walkIn "r" "2"

/-- Each has counted the line before the other has joined it. -/
def alternately : List Bool := (List.range 22).map fun k => k % 2 = 0

abbrev joinTogether : Interleaving Bool × Underway Bool :=
  interleave smooth.reply (together joinTwice (.empty 0)) alternately

theorem both_first :
    ¬ ∀ (ι : Type) [DecidableEq ι] (E : Env) (r : Uuid) (ops : ι → Operation) (w : World)
      (tr : Interleaving ι) (q : Underway ι), (∀ c, ¬ E.fails c) →
      (∀ i, Settles (ops i) ∧ .ofText (ops i).restaurantId = r) → Orderly r w.store →
      Run (Interleaves E.Answers) (together ops w) tr q → (∀ i, Completed (q.bodies i)) →
      Orderly r q.state.store := by
  intro h
  have hops : ∀ i, Settles (joinTwice i) ∧ Uuid.ofText (joinTwice i).restaurantId = .ofText "r" := by
    intro i
    cases i <;> exact ⟨trivial, rfl⟩
  have hline : Orderly (.ofText "r") (World.empty 0).store :=
    ⟨List.Perm.nil, List.forall_mem_nil _⟩
  have hsettled := h Bool smooth.env (.ofText "r") joinTwice (.empty 0) _ _
    (fun _ => Bool.false_ne_true) hops hline
    (interleave_run smooth.reply_answers _ alternately) (by decide +kernel)
  have hpositions : positions (.ofText "r") joinTogether.2.state.store = [some 1, some 1] := by
    decide +kernel
  have hperm := hsettled.line
  rw [InLine, show (joinTogether.2.state.store.waiting (.ofText "r")).length = 2 by decide +kernel,
    hpositions] at hperm
  exact absurd hperm (by decide)

end SpotQueue.LineSettles
