import SpotQueue.StoreChanges
import SpotQueue.Simulation

namespace SpotQueue.SideChannels

open SpotQueue.Entity SpotQueue.Repository SpotQueue.Environment SpotQueue.Recalculator
open SpotQueue.UseCases SpotQueue.Frame SpotQueue.Guards SpotQueue.Recalculation SpotQueue.Seating
open SpotQueue.Leaving SpotQueue.Registration SpotQueue.StoreChanges SpotQueue.Simulation
open SpotQueue.Awaits.AsyncProgram SpotQueue.Awaits.AsyncProtocol

variable {E E₁ E₂ : Env} {w w' w₁ w₂ : World} {c : Call} {α β : Type} {calls : Calls}

/-- What comes before the write: reading, asking the clock, telling the restaurant service. -/
def Prepares : Call → Prop
  | .now | .randomUUID | .getRestaurantStatus _ | .checkAvailability _ _ | .assignTables _ _
  | .predictEta _ _ _ | .findById _ | .findActiveByPhone _ _ | .findActiveByUserId _
  | .getRegistrationMetrics _ | .countPeopleAheadAtJoin _ _ => True
  | _ => False

/-- The response, but for the flag that tells whether a push job was queued. -/
def undispatched : Outcome → Outcome
  | .rung output => .rung { output with notificationDispatched := false }
  | outcome => outcome

/-- The response that belongs to a committed write. -/
def response : Call → Option Outcome
  | .createWithHistory e _ => some (.registered (toOutputDTO e))
  | .assignTablesWithHistory e tableIds _ _ =>
    e.seatedAt.map fun seatedAt => .assigned ⟨e.id, e.restaurantId, tableIds, e.status, seatedAt⟩
  | .save e =>
    e.lastRingedAt.map fun lastRingedAt =>
      .rung ⟨e.id, e.restaurantId, e.guestName, e.ringCount, lastRingedAt, false⟩
  | _ => none

inductive Standing
  | unwritten
  | refused
  | wrote (c : Call)

def committing : Protocol Call Answer QueueError Standing where
  allows
    | .unwritten, c => Prepares c ∨ ∃ o, response c = some o
    | .refused, _ => False
    | .wrote _, c => Quiet c
  expects
    | _, .createWithHistory e _, .ok d => d = e
    | _, .assignTablesWithHistory e _ _ _, .ok d => d = e
    | _, _, _ => True
  next
    | .unwritten, c, x => if DatabaseWrite c then
        match x with
        | .ok _ => .wrote c
        | .error _ => .refused
      else .unwritten
    | standing, _, _ => standing

/-- An execution that wrote is answered with what belongs to its write, any other is rejected. -/
def Decides (f : α → Outcome) : Standing → Except QueueError α → Prop
  | .wrote c, x => ∃ a, x = .ok a ∧ response c = some (undispatched (f a))
  | _, x => ∃ err, x = .error err

theorem prepares_not_write (hc : Prepares c) : ¬ DatabaseWrite c ∧ ¬ SideChannel c := by
  cases c <;> first | exact hc.elim | exact ⟨id, id⟩

theorem response_write {o : Outcome} (hc : response c = some o) : DatabaseWrite c ∧ ¬ SideChannel c := by
  cases c <;> first | exact ⟨trivial, id⟩ | cases hc

variable {f : α → Outcome}

theorem follows_before {p : UseCase β} {g : β → UseCase α} {R : β → Prop} (hp : Issues Prepares p)
    (hy : Yields R p) (hg : ∀ b, R b → Follows committing (Decides f) .unwritten (g b)) :
    Follows committing (Decides f) .unwritten (p >>= g) := by
  have hstay := follows_issues (P := committing) (m := .unwritten) hp fun c hc =>
    ⟨.inl hc, fun x _ => if_neg (prepares_not_write hc).1⟩
  refine follows_bind (follows_yields hstay hy) (fun m b h => ?_) fun m err h => ?_
  · obtain ⟨rfl, hb⟩ := h
    exact hg b (hb b rfl)
  · obtain ⟨rfl, -⟩ := h
    exact ⟨err, rfl⟩

theorem follows_prepare {p : UseCase β} {g : β → UseCase α} (hp : Issues Prepares p)
    (hg : ∀ b, Follows committing (Decides f) .unwritten (g b)) :
    Follows committing (Decides f) .unwritten (p >>= g) :=
  follows_before hp (yields_any p) fun b _ => hg b

theorem follows_write {rest : Answer c → UseCase α} {o : Outcome} (hc : response c = some o)
    (hrest : ∀ a, committing.expects .unwritten c (.ok a) →
      Issues Quiet (rest a) ∧ Resolves (rest a) ∧
        Yields (fun b => response c = some (undispatched (f b))) (rest a)) :
    Follows committing (Decides f) .unwritten (ask c >>= rest) := by
  refine ⟨.inr ⟨o, hc⟩, fun x hx => ?_⟩
  obtain err | a := x
  · change Follows _ _ (if _ then _ else _) _
    rw [if_pos (response_write hc).1]
    exact ⟨err, rfl⟩
  · change Follows _ _ (if _ then _ else _) _
    rw [if_pos (response_write hc).1]
    obtain ⟨hquiet, hresolves, hyields⟩ := hrest a hx
    have hstay := follows_issues (P := committing) (m := .wrote c) hquiet fun c hc => ⟨hc, fun _ _ => rfl⟩
    refine follows_mono (fun m x h => ?_) (follows_yields (follows_resolves hstay hresolves) hyields)
    obtain ⟨⟨rfl, b, rfl⟩, hb⟩ := h
    exact ⟨b, rfl, hb b rfl⟩

theorem admission_prepares (hc : Admission c) : Prepares c := by
  cases c <;> first | exact hc.elim | trivial

theorem follows_registerQueue (input : RegisterQueueInput) :
    Follows committing (Decides .registered) .unwritten (registerQueue input) := by
  refine follows_prepare (issues_mono (fun _ => admission_prepares) (issues_checkAdmission input))
    fun _ => follows_prepare (issues_call trivial) fun metrics =>
    follows_prepare (issues_call trivial) fun minutes => follows_prepare (issues_call trivial) fun id =>
    follows_prepare (issues_call trivial) fun now => follows_write rfl fun persisted hpersisted => ?_
  change persisted = _ at hpersisted
  subst hpersisted
  have hannounce := issues_mono (fun _ => announcement_quiet)
    (issues_announce input (metrics.queueDepth + 1) minutes (ticket input metrics minutes id now))
  exact ⟨issues_bind hannounce fun _ => issues_pure _,
    resolves_bind (resolves_announce _ _ _ _) fun _ => resolves_pure _,
    yields_then fun _ => yields_pure rfl⟩

theorem follows_assignTable (input : AssignTablesInput) :
    Follows committing (Decides .assigned) .unwritten (assignTable input) := by
  apply follows_prepare (issues_straight (straight_findOwned trivial))
  intro found
  change Follows _ _ _ (if _ then _ else _)
  split
  · exact ⟨_, rfl⟩
  have hahead : Issues Prepares (peopleAheadAtJoin input.restaurantId found.joinedAt) :=
    issues_attempt (issues_bind (issues_call trivial) fun _ => issues_pure _) fun _ => issues_pure _
  refine follows_prepare hahead fun ahead =>
    follows_before (issues_straight (straight_seat trivial found)) (yields_seat found) fun e he => ?_
  obtain ⟨-, a, b, rfl⟩ := he
  refine follows_prepare (issues_call trivial) fun _ => follows_write rfl fun persisted hpersisted => ?_
  change persisted = _ at hpersisted
  subst hpersisted
  refine ⟨issues_afterAssigning _ _ _ _, ?_, ?_⟩
  · have htraining : Resolves (publishTraining (found.seated a b) ahead) := by
      cases ahead with
      | none => exact resolves_pure _
      | some n => exact resolves_bind (resolves_pure a) fun _ => resolves_attempt _ fun _ => resolves_pure _
    exact resolves_bind (resolves_attempt _ fun _ => resolves_pure _) fun _ =>
      resolves_bind (resolves_attempt _ fun _ => resolves_pure _) fun _ =>
        resolves_bind htraining fun _ => resolves_bind (resolves_pure a) fun _ => resolves_pure _
  · exact yields_then fun _ => yields_then fun _ => yields_then fun _ =>
      yields_bind (yields_pure (R := (· = a)) rfl) fun seatedAt hseatedAt => yields_pure (hseatedAt ▸ rfl)

theorem follows_ringCustomer (input : RingCustomerInput) :
    Follows committing (Decides .rung) .unwritten (ringCustomer input) := by
  refine follows_prepare (issues_straight (straight_findOwned trivial)) fun found =>
    follows_before (issues_straight (straight_ring trivial found)) (yields_ring found) fun e he => ?_
  obtain ⟨-, a, b, rfl⟩ := he
  refine follows_write rfl fun _ _ => ⟨issues_notifyRung _ _, ?_, ?_⟩
  · have hdispatch : Resolves (dispatch (found.rung a b)
        (deepLink input.ticketDeepLinkBaseUrl (found.rung a b).id)) := by
      rw [dispatch]
      split
      · split
        · exact resolves_pure _
        · exact resolves_attempt _ fun _ => resolves_pure _
      · exact resolves_pure _
    exact resolves_bind hdispatch fun _ => resolves_bind (resolves_attempt _ fun _ => resolves_pure _)
      fun _ => resolves_bind (resolves_pure a) fun _ => resolves_pure _
  · exact yields_then fun _ => yields_then fun _ =>
      yields_bind (yields_pure (R := (· = a)) rfl) fun _ hrung => yields_pure (hrung ▸ rfl)

/-- Registering, assigning tables and ringing. -/
def SingleWrite : Operation → Prop
  | .register _ | .assignTable _ | .ringCustomer _ => True
  | _ => False

theorem follows_execute {op : Operation} (hop : SingleWrite op) :
    Follows committing (Decides id) .unwritten op.execute := by
  have hmap : ∀ {α : Type} {f : α → Outcome} {p : UseCase α},
      Follows committing (Decides f) .unwritten p →
      Follows committing (Decides id) .unwritten (f <$> p) := by
    intro α f p hp
    refine follows_bind hp (fun m a h => ?_) fun m err h => ?_
    · cases m with
      | wrote c =>
        obtain ⟨b, hb, hresponse⟩ := h
        cases hb
        exact ⟨f a, rfl, hresponse⟩
      | _ =>
        obtain ⟨err, herr⟩ := h
        cases herr
    · cases m with
      | wrote c =>
        obtain ⟨b, hb, -⟩ := h
        cases hb
      | _ => exact ⟨err, rfl⟩
  cases op with
  | register input => exact hmap (follows_registerQueue input)
  | assignTable input => exact hmap (follows_assignTable input)
  | ringCustomer input => exact hmap (follows_ringCustomer input)
  | _ => exact hop.elim

/-- The store after a call is decided by the store before it, the answer and its time. -/
theorem answers_effect {x : Except QueueError (Answer c)} (h₁ : E₁.Answers c w₁ x w)
    (h₂ : E₂.Answers c w₂ x w') (hstore : w₁.store = w₂.store) (hclock : w.clock = w'.clock) :
    w.store = w'.store := by
  obtain err | a := x
  · rw [(rejected_still h₁).store, (rejected_still h₂).store, hstore]
  · have hwritten := answers_written h₁
    rw [hstore, hclock, answers_written h₂] at hwritten
    exact (Except.ok.inj hwritten).symm

theorem answers_expected {m : Standing} {x : Except QueueError (Answer c)}
    (h : E.Answers c w x w') : committing.expects m c x := by
  obtain err | a := x
  · cases c <;> trivial
  · obtain ⟨t, -, hp⟩ := answers_ok h
    cases c with
    | createWithHistory | assignTablesWithHistory => exact (transacts_ok hp).1
    | _ => trivial

def Commits (ev : Event Call Answer QueueError World) : Prop :=
  DatabaseWrite ev.call ∧ ∃ a, ev.answer = .ok a

def writes (calls : Calls) : Nat := calls.countP fun ev => DatabaseWrite ev.call

theorem no_commit (h : writes calls = 0) : ∀ ev ∈ calls, ¬ Commits ev := by
  intro ev hev hcommits
  have hnone := List.countP_eq_zero.mp h ev hev
  exact hnone (decide_eq_true hcommits.1)

/-- What the calls so far and the store have to do with the standing. -/
def Accounts (s : Store) (calls : Calls) (w : World) : Standing → Prop
  | .unwritten => writes calls = 0 ∧ w.store = s
  | .refused => writes calls = 1 ∧ (∀ ev ∈ calls, ¬ Commits ev) ∧ w.store = s
  | .wrote _ => writes calls = 1 ∧ ∃ ev ∈ calls, Commits ev

theorem writes_write {x : Except QueueError (Answer c)} (hc : DatabaseWrite c) :
    writes (calls ++ [⟨w, c, x, w'⟩]) = writes calls + 1 := by
  simp [writes, hc]

theorem writes_other {x : Except QueueError (Answer c)} (hc : ¬ DatabaseWrite c) :
    writes (calls ++ [⟨w, c, x, w'⟩]) = writes calls := by
  simp [writes, hc]

theorem accounts_next {s : Store} {m : Standing} {x : Except QueueError (Answer c)}
    (hallows : committing.allows m c) (haccounts : Accounts s calls w m) (h : E.Answers c w x w') :
    Accounts s (calls ++ [⟨w, c, x, w'⟩]) w' (committing.next m c x) := by
  cases m with
  | unwritten =>
    obtain ⟨hnone, hstore⟩ := haccounts
    change Accounts _ _ _ (if _ then _ else _)
    by_cases hc : DatabaseWrite c
    · rw [if_pos hc]
      have honce : writes (calls ++ [⟨w, c, x, w'⟩]) = 1 :=
        (writes_write hc).trans (congrArg (· + 1) hnone)
      obtain err | a := x
      · refine ⟨honce, fun ev hev hcommits => ?_, (rejected_still h).store.trans hstore⟩
        obtain hev | hev := List.mem_append.mp hev
        · exact no_commit hnone ev hev hcommits
        · obtain ⟨-, a, ha⟩ := hcommits
          cases List.mem_singleton.mp hev
          cases ha
      · exact ⟨honce, _, List.mem_append_right _ (List.mem_singleton_self _), hc, a, rfl⟩
    · rw [if_neg hc]
      exact ⟨(writes_other hc).trans hnone, (answers_unwritten hc h).trans hstore⟩
  | refused => exact hallows.elim
  | wrote d =>
    obtain ⟨honce, ev, hev, hcommits⟩ := haccounts
    exact ⟨(writes_other (quiet_not_write hallows)).trans honce, ev, List.mem_append_left _ hev, hcommits⟩

/-- At most one call writes to the database, the execution is rejected exactly when
none commits, and then the store is as it was. -/
structure OneWrite (w : World) (calls : Calls) (x : Except QueueError Outcome) (w' : World) :
    Prop where
  once : writes calls ≤ 1
  rejects : (∃ err, x = .error err) ↔ ∀ ev ∈ calls, ¬ Commits ev
  unchanged : (∃ err, x = .error err) → w'.store = w.store

theorem execute_oneWrite {op : Operation} {x : Except QueueError Outcome} (hop : SingleWrite op)
    (h : Traces E.Answers op.execute w calls x w') : OneWrite w calls x w' := by
  obtain ⟨m, hdecides, haccounts⟩ := follows_traces
    (J := fun calls m v => Accounts w.store calls v m) (l := [])
    (fun hallows hJ hanswers => ⟨answers_expected hanswers, accounts_next hallows hJ hanswers⟩)
    (follows_execute hop) ⟨rfl, rfl⟩ h
  rw [List.nil_append] at haccounts
  cases m with
  | unwritten =>
    obtain ⟨hnone, hstore⟩ := haccounts
    exact ⟨by omega, ⟨fun _ => no_commit hnone, fun _ => hdecides⟩, fun _ => hstore⟩
  | refused =>
    obtain ⟨honce, hnone, hstore⟩ := haccounts
    exact ⟨honce.le, ⟨fun _ => hnone, fun _ => hdecides⟩, fun _ => hstore⟩
  | wrote c =>
    obtain ⟨honce, ev, hev, hcommits⟩ := haccounts
    obtain ⟨o, rfl, -⟩ := hdecides
    have hresolved : ¬ ∃ err, Except.ok o = (.error err : Except QueueError Outcome) := by simp
    exact ⟨honce.le, ⟨fun h => (hresolved h).elim, fun h => (h ev hev hcommits).elim⟩,
      fun h => (hresolved h).elim⟩

/-- One answer and when it came. -/
structure Reply where
  call : Call
  answer : Except QueueError (Answer call)
  clock : Time
deriving DecidableEq

/-- The answers of everything but the side channels. -/
def essential (calls : Calls) : List Reply :=
  (calls.filter fun ev => ¬ SideChannel ev.call).map fun ev => ⟨ev.call, ev.answer, ev.after.clock⟩

/-- Wherever the two ask the same, they are answered the same, at the same time. -/
def Agree : List Reply → List Reply → Prop
  | a :: as, b :: bs => a.call = b.call → a = b ∧ Agree as bs
  | _, _ => True

theorem agree_refl (l : List Reply) : Agree l l := by
  induction l with
  | nil => trivial
  | cons a l ih => exact fun _ => ⟨rfl, ih⟩

theorem essential_cons {x : Except QueueError (Answer c)} (hc : ¬ SideChannel c) :
    essential (⟨w, c, x, w'⟩ :: calls) = ⟨c, x, w'.clock⟩ :: essential calls := by
  simp [essential, hc]

theorem wrote_settles {p : UseCase Outcome} {x : Except QueueError Outcome}
    (hp : Follows committing (Decides id) (.wrote c) p) (h : Traces E.Answers p w calls x w') :
    w'.store = w.store ∧ ∃ o, x = .ok o ∧ response c = some (undispatched o) := by
  obtain ⟨m, hdecides, rfl, hstore⟩ := follows_traces
    (J := fun _ m v => m = .wrote c ∧ v.store = w.store) (l := [])
    (fun hallows hJ hanswers => by
      obtain ⟨rfl, hstore⟩ := hJ
      exact ⟨answers_expected hanswers, rfl, (answers_calm hallows hanswers).store.trans hstore⟩)
    hp ⟨rfl, rfl⟩ h
  exact ⟨hstore, hdecides⟩

theorem refused_settles {p : UseCase Outcome} {calls₁ calls₂ : Calls}
    {x₁ x₂ : Except QueueError Outcome} {u₁ u₂ : World}
    (hp : Follows committing (Decides id) .refused p) (hstore : w₁.store = w₂.store)
    (h₁ : Traces E₁.Answers p w₁ calls₁ x₁ u₁) (h₂ : Traces E₂.Answers p w₂ calls₂ x₂ u₂) :
    u₁.store = u₂.store ∧ x₁.map undispatched = x₂.map undispatched := by
  cases p with
  | await c k => exact hp.1.elim
  | _ =>
    cases h₁
    cases h₂
    exact ⟨hstore, rfl⟩

theorem same_settlement {p : UseCase Outcome} {calls₁ calls₂ : Calls} {x₁ x₂ : Except QueueError Outcome}
    {u₁ u₂ : World} (hp : Follows committing (Decides id) .unwritten p)
    (h₁ : Traces E₁.Answers p w₁ calls₁ x₁ u₁) (h₂ : Traces E₂.Answers p w₂ calls₂ x₂ u₂)
    (hstore : w₁.store = w₂.store) (hagree : Agree (essential calls₁) (essential calls₂)) :
    u₁.store = u₂.store ∧ x₁.map undispatched = x₂.map undispatched := by
  induction p generalizing w₁ w₂ calls₁ calls₂ with
  | done a =>
    cases h₁
    cases h₂
    exact ⟨hstore, rfl⟩
  | reject err =>
    cases h₁
    cases h₂
    exact ⟨hstore, rfl⟩
  | await c k ih =>
    obtain ⟨hallows, hnext⟩ := hp
    have hessential : ¬ SideChannel c := by
      obtain hc | ⟨o, hc⟩ := hallows
      · exact (prepares_not_write hc).2
      · exact (response_write hc).2
    cases h₁ with
    | await hc₁ hk₁ =>
      cases h₂ with
      | await hc₂ hk₂ =>
        rw [essential_cons hessential, essential_cons hessential] at hagree
        obtain ⟨hreply, hlater⟩ := hagree rfl
        injection hreply with _ hanswer hclock
        subst hanswer
        have hstore' := answers_effect hc₁ hc₂ hstore hclock
        have hrest := hnext _ (answers_expected hc₁)
        change Follows _ _ (if _ then _ else _) _ at hrest
        by_cases hc : DatabaseWrite c
        swap
        · rw [if_neg hc] at hrest
          exact ih _ hrest hk₁ hk₂ hstore' hlater
        rw [if_pos hc] at hrest
        split at hrest
        · obtain ⟨hu₁, o₁, rfl, ho₁⟩ := wrote_settles hrest hk₁
          obtain ⟨hu₂, o₂, rfl, ho₂⟩ := wrote_settles hrest hk₂
          rw [ho₁] at ho₂
          exact ⟨hu₁.trans (hstore'.trans hu₂.symm), congrArg Except.ok (Option.some.inj ho₂)⟩
        · exact refused_settles hrest hstore' hk₁ hk₂

/-- A single write decides how an operation ends. The side channels have no say
in it: whichever of them fail, the store and the response are the same. -/
theorem side_channels_undecisive {op : Operation} (hop : SingleWrite op) :
    (∀ E w calls x w', Traces (Env.Answers E) op.execute w calls x w' → OneWrite w calls x w') ∧
      ∀ E₁ E₂ w calls₁ calls₂ x₁ x₂ w₁ w₂, Traces (Env.Answers E₁) op.execute w calls₁ x₁ w₁ →
        Traces (Env.Answers E₂) op.execute w calls₂ x₂ w₂ →
        Agree (essential calls₁) (essential calls₂) →
        w₁.store = w₂.store ∧ x₁.map undispatched = x₂.map undispatched :=
  ⟨fun _ _ _ _ _ h => execute_oneWrite hop h,
    fun _ _ _ _ _ _ _ _ _ h₁ h₂ hagree => same_settlement (follows_execute hop) h₁ h₂ rfl hagree⟩

/-- No side channel answers. -/
def cutOff : Script := ⟨fun c => decide (SideChannel c), smooth.eta⟩

def walkInRun (script : Script) : Calls × Except QueueError Outcome × World :=
  run script.reply (walkIn "r" "1").execute (World.empty 0)

theorem side_channels_undecisive_walkIn :
    (walkInRun smooth).2.2.store = (walkInRun cutOff).2.2.store ∧
      (walkInRun smooth).2.1.map undispatched = (walkInRun cutOff).2.1.map undispatched := by
  have hagree : Agree (essential (walkInRun smooth).1) (essential (walkInRun cutOff).1) := by
    have hsame : essential (walkInRun smooth).1 = essential (walkInRun cutOff).1 := by
      decide +kernel
    rw [hsame]
    exact agree_refl _
  have hsingle : SingleWrite (walkIn "r" "1") := trivial
  exact (side_channels_undecisive hsingle).2 smooth.env cutOff.env _ _ _ _ _ _ _
    (run_traces smooth.reply_answers _ _) (run_traces cutOff.reply_answers _ _) hagree

end SpotQueue.SideChannels
