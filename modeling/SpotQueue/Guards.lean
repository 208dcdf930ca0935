import SpotQueue.Frame

namespace SpotQueue.Guards

open SpotQueue.Entity SpotQueue.Repository SpotQueue.Environment SpotQueue.Recalculator
open SpotQueue.UseCases SpotQueue.Frame SpotQueue.Awaits.AsyncProgram SpotQueue.Awaits.AsyncProtocol

variable {E : Env} {w w' : World}

theorem answers_ok {c : Call} {a : Answer c} (h : E.Answers c w (.ok a) w') :
    ∃ t, E.tick w.clock t ∧ E.Performs c (w.at t) (.ok a) w' := by
  obtain ⟨t, ht, hp | ⟨-, -, hx, -⟩⟩ := h
  · exact ⟨t, ht, hp⟩
  · cases hx

/-- A call that performs nothing but an answer is rejected by failing only. -/
theorem fails_of_error {c : Call} {e : QueueError} (h : E.Answers c w (.error e) w')
    (hp : ∀ t, ¬ E.Performs c (w.at t) (.error e) w') : E.fails c := by
  obtain ⟨t, -, hperforms | ⟨-, hf, -⟩⟩ := h
  · exact (hp t hperforms).elim
  · exact hf

theorem now_answers {x : Except QueueError Time} (h : E.Answers .now w x w') :
    x = .ok w'.clock ∧ Still E w w' := by
  have hs := answers_still (c := .now) trivial h
  obtain ⟨t, -, ⟨rfl, rfl⟩ | ⟨hd, -⟩⟩ := h
  · exact ⟨rfl, hs⟩
  · exact hd.elim

theorem straight_findOwned {Q : Call → Prop} {restaurantId queueEntryId : String}
    (hfind : Q (.findById queueEntryId)) : Straight Q True (findOwned restaurantId queueEntryId) := by
  apply straight_bind (straight_call hfind)
  intro o
  cases o with
  | none => exact straight_throw trivial _
  | some e =>
    change Straight Q True (if _ then _ else _)
    split
    · exact straight_throw trivial _
    · exact straight_pure _

theorem issues_findOwned (restaurantId queueEntryId : String) :
    Issues Reads (findOwned restaurantId queueEntryId) := issues_straight (straight_findOwned trivial)

/-- The row a staff use case works on is the one stored under the requested id,
and it belongs to the requesting restaurant. -/
theorem findOwned_executes {restaurantId queueEntryId : String} {e : QueueEntry}
    (h : Executes E.Answers (findOwned restaurantId queueEntryId) w (.ok e) w') :
    Still E w w' ∧ w.store.findById queueEntryId = some e ∧ e.restaurantId.text = restaurantId := by
  refine ⟨still_of_issues (issues_findOwned _ _) h, ?_⟩
  obtain ⟨o, u, ho, h⟩ | ⟨e, he, -⟩ := executes_call_bind h
  · obtain ⟨t, -, hx, rfl⟩ := answers_ok ho
    cases hx
    cases hf : (w.at t).store.findById queueEntryId with
    | none =>
      rw [hf] at h
      obtain ⟨he, -⟩ := executes_throw.mp h
      cases he
    | some d =>
      rw [hf] at h
      change Executes _ (if _ then _ else _) _ _ _ at h
      split at h
      · obtain ⟨he, -⟩ := executes_throw.mp h
        cases he
      · rename_i hr
        obtain ⟨he, -⟩ := executes_pure.mp h
        cases he
        exact ⟨hf, not_not.mp hr⟩
  · cases he

theorem requireWaiting_executes {queueEntryId : String} {e : QueueEntry} {x : Except QueueError Unit}
    (h : Executes E.Answers (requireWaiting queueEntryId e) w x w') :
    w' = w ∧ (x = .ok () → e.status = .waiting) := by
  rw [requireWaiting] at h
  split at h
  · obtain ⟨rfl, rfl⟩ := executes_throw.mp h
    exact ⟨rfl, nofun⟩
  · rename_i hs
    obtain ⟨-, rfl⟩ := executes_pure.mp h
    exact ⟨rfl, fun _ => not_not.mp hs⟩

section guards

variable {Q : Call → Prop}

theorem straight_requireWaiting {queueEntryId : String} (e : QueueEntry) :
    Straight Q True (requireWaiting queueEntryId e) := by
  rw [requireWaiting]
  split
  · exact straight_throw trivial _
  · exact straight_pure _

variable (hnow : Q .now)

include hnow

theorem straight_seat (e : QueueEntry) : Straight Q True (seat e) :=
  straight_bind (straight_requireWaiting e) fun _ => straight_bind (straight_call hnow) fun _ =>
    straight_bind (straight_call hnow) fun _ => straight_pure _

theorem straight_skip (e : QueueEntry) : Straight Q True (skip e) :=
  straight_bind (straight_requireWaiting e) fun _ => straight_bind (straight_call hnow) fun _ =>
    straight_pure _

theorem straight_cancel (e : QueueEntry) (status : QueueStatus) : Straight Q True (cancel e status) :=
  straight_bind (straight_requireWaiting e) fun _ => straight_bind (straight_call hnow) fun _ =>
    straight_bind (straight_call hnow) fun _ => straight_pure _

theorem straight_updatePosition (e : QueueEntry) (newPosition : Nat) :
    Straight Q True (updatePosition e newPosition) := by
  change Straight Q True (if _ then _ else _)
  split
  · exact straight_pure _
  · exact straight_bind (straight_call hnow) fun _ => straight_pure _

theorem straight_ring (e : QueueEntry) : Straight Q True (ring e) := by
  apply straight_bind (straight_requireWaiting e)
  intro _
  change Straight Q True (if _ then _ else _)
  split
  · exact straight_throw trivial _
  · exact straight_bind (straight_call hnow) fun _ => straight_bind (straight_call hnow) fun _ =>
      straight_pure _

end guards

theorem issues_requireWaiting {queueEntryId : String} (e : QueueEntry) :
    Issues Reads (requireWaiting queueEntryId e) :=
  issues_straight (straight_requireWaiting e)

theorem issues_seat (e : QueueEntry) : Issues Reads (seat e) := issues_straight (straight_seat trivial e)

theorem issues_skip (e : QueueEntry) : Issues Reads (skip e) := issues_straight (straight_skip trivial e)

theorem issues_cancel (e : QueueEntry) (status : QueueStatus) : Issues Reads (cancel e status) :=
  issues_straight (straight_cancel trivial e status)

theorem issues_updatePosition (e : QueueEntry) (newPosition : Nat) :
    Issues Reads (updatePosition e newPosition) := issues_straight (straight_updatePosition trivial _ _)

theorem issues_ring (e : QueueEntry) : Issues Reads (ring e) := issues_straight (straight_ring trivial e)

theorem yields_requireWaiting {queueEntryId : String} (e : QueueEntry) :
    Yields (fun _ => e.status = .waiting) (requireWaiting queueEntryId e) := by
  rw [requireWaiting]
  split
  · exact yields_throw _
  · rename_i hw
    exact yields_pure (not_not.mp hw)

theorem yields_seat (e : QueueEntry) :
    Yields (fun d => e.status = .waiting ∧ ∃ a b, d = e.seated a b) (seat e) :=
  yields_bind (yields_requireWaiting e) fun _ hw => yields_then fun a => yields_then fun b =>
    yields_pure ⟨hw, a, b, rfl⟩

theorem yields_skip (e : QueueEntry) :
    Yields (fun d => e.status = .waiting ∧ ∃ a, d = e.skipped a) (skip e) :=
  yields_bind (yields_requireWaiting e) fun _ hw => yields_then fun a => yields_pure ⟨hw, a, rfl⟩

theorem yields_cancel (e : QueueEntry) (status : QueueStatus) :
    Yields (fun d => e.status = .waiting ∧ ∃ a b, d = e.cancelled status a b) (cancel e status) :=
  yields_bind (yields_requireWaiting e) fun _ hw => yields_then fun a => yields_then fun b =>
    yields_pure ⟨hw, a, b, rfl⟩

theorem yields_updatePosition (e : QueueEntry) (newPosition : Nat) :
    Yields (fun d => d = e ∨ ∃ a, d = e.moved newPosition a) (updatePosition e newPosition) := by
  change Yields _ (if _ then _ else _)
  split
  · exact yields_pure (.inl rfl)
  · exact yields_then fun a => yields_pure (.inr ⟨a, rfl⟩)

theorem yields_ring (e : QueueEntry) :
    Yields (fun d => e.status = .waiting ∧ ∃ a b, d = e.rung a b) (ring e) := by
  apply yields_bind (yields_requireWaiting e)
  intro _ hw
  change Yields _ (if _ then _ else _)
  split
  · exact yields_throw _
  · exact yields_then fun a => yields_then fun b => yields_pure ⟨hw, a, b, rfl⟩

theorem executes_ok {α β : Type} {p : UseCase α} {f : α → UseCase β} {b : β}
    (h : Executes E.Answers (p >>= f) w (.ok b) w') :
    ∃ a u, Executes E.Answers p w (.ok a) u ∧ Executes E.Answers (f a) u (.ok b) w' := by
  obtain h | ⟨e, he, -⟩ := executes_bind h
  · exact h
  · cases he

theorem now_executes {t : Time} (h : Executes E.Answers (ask .now) w (.ok t) w') :
    t = w'.clock ∧ Still E w w' := by
  obtain ⟨ht, hs⟩ := now_answers (executes_call.mp h)
  exact ⟨Except.ok.inj ht, hs⟩

/-- The guard of the entity, then its two reads of the clock. -/
theorem stamped_executes {queueEntryId : String} {e d : QueueEntry} {f : Time → Time → QueueEntry}
    (hstamped : Executes E.Answers (do
      requireWaiting queueEntryId e
      let a ← ask .now
      let b ← ask .now
      return f a b) w (.ok d) w') :
    e.status = .waiting ∧ ∃ a b, During E w w' a ∧ During E w w' b ∧ d = f a b := by
  obtain ⟨_, u, hg, h⟩ := executes_ok hstamped
  obtain ⟨rfl, hw⟩ := requireWaiting_executes hg
  obtain ⟨a, v, ha, h⟩ := executes_ok h
  obtain ⟨b, v', hb, h⟩ := executes_ok h
  obtain ⟨rfl, hv⟩ := now_executes ha
  obtain ⟨rfl, hv'⟩ := now_executes hb
  obtain ⟨hd, rfl⟩ := executes_pure.mp h
  exact ⟨hw rfl, _, _, ⟨hv.later, hv'.later⟩, ⟨(still_trans hv hv').later, .refl⟩,
    Except.ok.inj hd⟩

theorem seat_executes {e d : QueueEntry} (hseat : Executes E.Answers (seat e) w (.ok d) w') :
    Still E w w' ∧ e.status = .waiting ∧
      ∃ a b, During E w w' a ∧ During E w w' b ∧ d = e.seated a b :=
  ⟨still_of_issues (issues_seat e) hseat, stamped_executes hseat⟩

theorem skip_executes {e d : QueueEntry} (hskip : Executes E.Answers (skip e) w (.ok d) w') :
    Still E w w' ∧ e.status = .waiting ∧ ∃ a, During E w w' a ∧ d = e.skipped a := by
  refine ⟨still_of_issues (issues_skip e) hskip, ?_⟩
  obtain ⟨_, u, hg, h⟩ := executes_ok hskip
  obtain ⟨rfl, hw⟩ := requireWaiting_executes hg
  obtain ⟨a, v, ha, h⟩ := executes_ok h
  obtain ⟨rfl, hv⟩ := now_executes ha
  obtain ⟨hd, rfl⟩ := executes_pure.mp h
  exact ⟨hw rfl, _, ⟨hv.later, .refl⟩, Except.ok.inj hd⟩

theorem cancel_executes {e d : QueueEntry} {status : QueueStatus}
    (hcancel : Executes E.Answers (cancel e status) w (.ok d) w') :
    Still E w w' ∧ e.status = .waiting ∧
      ∃ a b, During E w w' a ∧ During E w w' b ∧ d = e.cancelled status a b :=
  ⟨still_of_issues (issues_cancel e status) hcancel, stamped_executes hcancel⟩

theorem updatePosition_executes {e : QueueEntry} {newPosition : Nat}
    {x : Except QueueError QueueEntry} (hw : e.status = .waiting)
    (h : Executes E.Answers (updatePosition e newPosition) w x w') :
    Still E w w' ∧ ∃ a, x = .ok (e.moved newPosition a) := by
  refine ⟨still_of_issues (issues_updatePosition e newPosition) h, ?_⟩
  change Executes _ (if _ then _ else _) _ _ _ at h
  rw [if_neg (not_not.mpr hw)] at h
  obtain ⟨a, v, -, h⟩ | ⟨err, -, hnow⟩ := executes_call_bind h
  · exact ⟨a, (executes_pure.mp h).1⟩
  · cases (now_answers hnow).1

theorem ring_executes {e d : QueueEntry} (hring : Executes E.Answers (ring e) w (.ok d) w') :
    Still E w w' ∧ e.status = .waiting ∧ ∃ a b, d = e.rung a b := by
  refine ⟨still_of_issues (issues_ring e) hring, ?_⟩
  obtain ⟨_, u, hg, h⟩ := executes_ok hring
  obtain ⟨rfl, hw⟩ := requireWaiting_executes hg
  refine ⟨hw rfl, ?_⟩
  change Executes _ (if _ then _ else _) _ _ _ at h
  split at h
  · obtain ⟨he, -⟩ := executes_throw.mp h
    cases he
  · obtain ⟨a, v, -, h⟩ := executes_ok h
    obtain ⟨b, v', -, h⟩ := executes_ok h
    obtain ⟨hd, -⟩ := executes_pure.mp h
    exact ⟨a, b, Except.ok.inj hd⟩

/-- A part that only reads either lets the rest go on from an unmoved world, or ends it all. -/
theorem reads_bind {α β : Type} {p : UseCase α} {f : α → UseCase β} {x : Except QueueError β}
    (hp : Issues Reads p) (h : Executes E.Answers (p >>= f) w x w') :
    (∃ a u, Executes E.Answers p w (.ok a) u ∧ Still E w u ∧ Executes E.Answers (f a) u x w') ∨
      (∃ e, x = .error e) ∧ Still E w w' := by
  obtain ⟨a, u, hp', h⟩ | ⟨e, rfl, he⟩ := executes_bind h
  · exact .inl ⟨a, u, hp', still_of_issues hp hp', h⟩
  · exact .inr ⟨⟨e, rfl⟩, still_of_issues hp he⟩

theorem traces_reads_bind {α β : Type} {p : UseCase α} {f : α → UseCase β}
    {calls : List (Event Call Answer QueueError World)} {x : Except QueueError β}
    (hp : Issues Reads p) (h : Traces E.Answers (p >>= f) w calls x w') :
    (∃ a u pre post, calls = pre ++ post ∧ Executes E.Answers p w (.ok a) u ∧ Still E w u ∧
        (∀ ev ∈ pre, Reads ev.call) ∧ Traces E.Answers (f a) u post x w') ∨
      (∃ e, x = .error e) ∧ Still E w w' ∧ ∀ ev ∈ calls, Reads ev.call := by
  obtain ⟨a, u, pre, post, rfl, hp', h⟩ | ⟨e, rfl, he⟩ := traces_bind h
  · exact .inl ⟨a, u, pre, post, rfl, ⟨pre, hp'⟩, still_of_issues hp ⟨pre, hp'⟩,
      issues_traces hp hp', h⟩
  · exact .inr ⟨⟨e, rfl⟩, still_of_issues hp ⟨calls, he⟩, issues_traces hp he⟩

/-- What was never rejected would have gone the same way where it cannot be rejected. -/
theorem traces_fails {α : Type} {p : UseCase α} {x : Except QueueError α} {Q : Call → Prop}
    {calls : List (Event Call Answer QueueError World)}
    (hQ : ∀ ev ∈ calls, ∀ e, ev.answer = .error e → Q ev.call) (h : Traces E.Answers p w calls x w') :
    Traces ({ E with fails := Q } : Env).Answers p w calls x w' := by
  apply traces_mono h
  intro ev hev hanswer
  obtain ⟨t, ht, hp | ⟨hdependency, -, hx, hw⟩⟩ := hanswer
  · exact ⟨t, ht, .inl hp⟩
  · exact ⟨t, ht, .inr ⟨hdependency, hQ ev hev _ hx, hx, hw⟩⟩

/-- What a call makes of the store when it is answered at that time. -/
def written : Call → Store → Time → Except QueueError Store
  | .createWithHistory e changedBy, s, now => s.createWithHistory e changedBy now
  | .assignTablesWithHistory e tableIds assignedBy previousStatus, s, now =>
    s.assignTablesWithHistory e tableIds assignedBy previousStatus now
  | .updateStatusWithHistory params, s, now => s.updateStatusWithHistory params now
  | .save e, s, _ => .ok (s.save e)
  | .releaseTableAssignments q, s, now => .ok (s.releaseTableAssignments q now)
  | .batchUpdatePositions us, s, now => s.batchUpdatePositions us now
  | _, s, _ => .ok s

/-- Only a transaction is performed with an error, the one that its writes end with. -/
theorem performs_error {c : Call} {e : QueueError} (h : E.Performs c w (.error e) w') :
    written c w.store w.clock = .error e ∧ w' = w := by
  cases c with
  | randomUUID | getRestaurantStatus | checkAvailability =>
    obtain ⟨⟨a, ha⟩, -⟩ := h
    cases ha
  | createWithHistory | assignTablesWithHistory | updateStatusWithHistory
  | batchUpdatePositions => exact transacts_error h
  | predictEta | findActiveEntries | findActiveTableAssignments =>
    obtain ⟨⟨a, -, ha⟩, -⟩ := h
    cases ha
  | findActiveByPhone | findActiveByUserId =>
    obtain ⟨⟨a, -, -, ha⟩, -⟩ := h
    cases ha
  | _ => cases h.1

/-- A rejected call has changed nothing. -/
theorem rejected_still {c : Call} {e : QueueError} (h : E.Answers c w (.error e) w') :
    Still E w w' := by
  obtain ⟨t, ht, hp | ⟨-, -, -, rfl⟩⟩ := h
  · obtain ⟨-, rfl⟩ := performs_error hp
    exact ⟨rfl, rfl, rfl, rfl, .single ht⟩
  · exact ⟨rfl, rfl, rfl, rfl, .single ht⟩

theorem answers_written {c : Call} {a : Answer c} (h : E.Answers c w (.ok a) w') :
    written c w.store w'.clock = .ok w'.store := by
  obtain ⟨t, -, hp⟩ := answers_ok h
  cases c with
  | createWithHistory | assignTablesWithHistory | updateStatusWithHistory | batchUpdatePositions =>
    obtain ⟨-, s, hs, rfl⟩ := transacts_ok hp
    exact hs
  | _ =>
    obtain ⟨-, rfl⟩ := hp
    rfl

theorem answers_unwritten {c : Call} {x : Except QueueError (Answer c)} (hc : ¬ DatabaseWrite c)
    (h : E.Answers c w x w') : w'.store = w.store := by
  obtain err | a := x
  · exact (rejected_still h).store
  · have hsame := answers_written h
    cases c <;> first | exact (Except.ok.inj hsame).symm | exact (hc trivial).elim

end SpotQueue.Guards
