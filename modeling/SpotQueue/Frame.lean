import SpotQueue.UseCases
import SpotQueue.Awaits.AsyncProtocol
import Mathlib.Logic.Relation

namespace SpotQueue.Frame

open SpotQueue.Entity SpotQueue.Repository SpotQueue.Environment SpotQueue.Recalculator
open SpotQueue.UseCases SpotQueue.Awaits.AsyncProgram SpotQueue.Awaits.AsyncProtocol

variable {E : Env} {w u v w' : World}

def Later (E : Env) : Time → Time → Prop := Relation.ReflTransGen E.tick

theorem later_le (htick : ∀ a b, E.tick a b → a ≤ b) {a b : Time} (h : Later E a b) : a ≤ b := by
  induction h with
  | refl => exact le_rfl
  | tail _ hlast ih => exact ih.trans (htick _ _ hlast)

/-- A reading of the clock taken on the way from one world to the other. -/
def During (E : Env) (w w' : World) (t : Time) : Prop := Later E w.clock t ∧ Later E t w'.clock

theorem during_widen {t : Time} {v : World} (hw : Later E w.clock u.clock) (h : During E u v t)
    (hv : Later E v.clock w'.clock) : During E w w' t :=
  ⟨hw.trans h.1, h.2.trans hv⟩

/-- Nothing but the clock moved. -/
structure Still (E : Env) (w w' : World) : Prop where
  store : w'.store = w.store
  occupancy : w'.occupancy = w.occupancy
  cache : w'.cache = w.cache
  deliveries : w'.deliveries = w.deliveries
  later : Later E w.clock w'.clock

/-- Nothing that a later use case could read from the database or the
restaurant service moved; the cache and the clients may have heard something. -/
structure Calm (E : Env) (w w' : World) : Prop where
  store : w'.store = w.store
  occupancy : w'.occupancy = w.occupancy
  later : Later E w.clock w'.clock

/-- The store was replaced by a committed transaction; nothing else but the clock moved. -/
structure Committed (E : Env) (w : World) (s : Store) (w' : World) : Prop where
  store : w'.store = s
  occupancy : w'.occupancy = w.occupancy
  cache : w'.cache = w.cache
  deliveries : w'.deliveries = w.deliveries
  later : Later E w.clock w'.clock

theorem Still.committed (h : Still E w u) (s : Store) : Committed E w s (u.commit s) :=
  ⟨rfl, h.occupancy, h.cache, h.deliveries, h.later⟩

theorem Still.calm (h : Still E w w') : Calm E w w' := ⟨h.store, h.occupancy, h.later⟩

theorem still_refl (w : World) : Still E w w := ⟨rfl, rfl, rfl, rfl, .refl⟩

theorem still_trans (h₁ : Still E w u) (h₂ : Still E u v) : Still E w v :=
  ⟨h₂.store.trans h₁.store, h₂.occupancy.trans h₁.occupancy, h₂.cache.trans h₁.cache,
    h₂.deliveries.trans h₁.deliveries, h₁.later.trans h₂.later⟩

theorem committed_of_still {s : Store} (hu : Still E w u) (hv : Committed E u s v) :
    Committed E w s v :=
  ⟨hv.store, hv.occupancy.trans hu.occupancy, hv.cache.trans hu.cache,
    hv.deliveries.trans hu.deliveries, hu.later.trans hv.later⟩

theorem calm_refl (w : World) : Calm E w w := (still_refl w).calm

theorem calm_trans (h₁ : Calm E w u) (h₂ : Calm E u v) : Calm E w v :=
  ⟨h₂.store.trans h₁.store, h₂.occupancy.trans h₁.occupancy, h₁.later.trans h₂.later⟩

def Reads : Call → Prop
  | .now | .randomUUID | .getRestaurantStatus _ | .checkAvailability _ _ | .predictEta _ _ _
  | .findById _ | .findActiveEntries _ | .findActiveByPhone _ _ | .findActiveByUserId _
  | .getRegistrationMetrics _ | .countPeopleAheadAtJoin _ _ | .findActiveTableAssignments _
  | .addJob _ | .publishToMlEta _ => True
  | _ => False

def Talks : Call → Prop
  | .redisSet _ _ | .redisDel _ | .broadcastToRestaurant _ _ _ | .sendToTicket _ _ _ => True
  | _ => False

/-- The calls a use case can do without: the cache, the broadcasts, the two queues. -/
def SideChannel : Call → Prop
  | .redisSet _ _ | .redisDel _ | .broadcastToRestaurant _ _ _ | .sendToTicket _ _ _
  | .addJob _ | .publishToMlEta _ => True
  | _ => False

instance : DecidablePred SideChannel := fun c => by
  apply Call.casesOn (motive := fun c => Decidable (SideChannel c)) c <;> intros <;>
    unfold SideChannel <;> infer_instance

def DatabaseWrite : Call → Prop
  | .createWithHistory _ _ | .assignTablesWithHistory _ _ _ _ | .updateStatusWithHistory _ | .save _
  | .releaseTableAssignments _ | .batchUpdatePositions _ => True
  | _ => False

instance : DecidablePred DatabaseWrite := fun c => by
  apply Call.casesOn (motive := fun c => Decidable (DatabaseWrite c)) c <;> intros <;>
    unfold DatabaseWrite <;> infer_instance

/-- The calls that bringing a line up to date depends on. -/
def Essential : Call → Prop
  | .findActiveEntries _ | .predictEta _ _ _ | .batchUpdatePositions _
  | .updateStatusWithHistory _ => True
  | _ => False

def EssentialFails (E : Env) : Prop := ∃ c, Essential c ∧ E.fails c

theorem not_essentialFails (hfails : ∀ c, E.fails c → SideChannel c) : ¬ EssentialFails E := by
  rintro ⟨c, hc, hf⟩
  have hside := hfails c hf
  cases c <;> first | exact hc.elim | exact hside.elim

def Quiet (c : Call) : Prop := Reads c ∨ Talks c

theorem quiet_not_write {c : Call} (hc : Quiet c) : ¬ DatabaseWrite c := by
  obtain hc | hc := hc <;> cases c <;> first | exact hc.elim | exact id

theorem answers_still {c : Call} {x : Except QueueError (Answer c)} (hc : Reads c)
    (h : E.Answers c w x w') : Still E w w' := by
  obtain ⟨t, ht, hp | ⟨-, -, -, rfl⟩⟩ := h
  · have hw : w' = w.at t := by cases c <;> first | exact hc.elim | exact hp.2
    exact hw ▸ ⟨rfl, rfl, rfl, rfl, .single ht⟩
  · exact ⟨rfl, rfl, rfl, rfl, .single ht⟩

theorem answers_calm {c : Call} {x : Except QueueError (Answer c)} (hc : Quiet c)
    (h : E.Answers c w x w') : Calm E w w' := by
  obtain hc | hc := hc
  · exact (answers_still hc h).calm
  · cases c with
    | redisSet | redisDel | broadcastToRestaurant | sendToTicket =>
      obtain ⟨t, ht, ⟨-, rfl⟩ | ⟨-, -, -, rfl⟩⟩ := h <;> exact ⟨rfl, rfl, .single ht⟩
    | _ => exact hc.elim

theorem transacts_ok {α : Type} {result : Except QueueError Store} {a b : α}
    (h : Transacts result a w (.ok b) w') : b = a ∧ ∃ s, result = .ok s ∧ w' = w.commit s := by
  cases result with
  | error e => cases h.1
  | ok s => exact ⟨Except.ok.inj h.1, s, rfl, h.2⟩

theorem transacts_error {α : Type} {result : Except QueueError Store} {a : α} {e : QueueError}
    (h : Transacts result a w (.error e) w') : result = .error e ∧ w' = w := by
  cases result with
  | error d => exact ⟨congrArg _ (Except.error.inj h.1).symm, h.2⟩
  | ok s => cases h.1

theorem transacts_world {α : Type} {result : Except QueueError Store} {a : α}
    {x : Except QueueError α} (h : Transacts result a w x w') : (∃ s, w' = w.commit s) ∨ w' = w := by
  cases result with
  | error d => exact .inr h.2
  | ok s => exact .inl ⟨s, h.2⟩

theorem answers_later {c : Call} {x : Except QueueError (Answer c)} (h : E.Answers c w x w') :
    Later E w.clock w'.clock := by
  obtain ⟨t, ht, hp | ⟨-, -, -, rfl⟩⟩ := h
  · have hclock : w'.clock = t := by
      cases c with
      | createWithHistory | assignTablesWithHistory | updateStatusWithHistory
      | batchUpdatePositions =>
        obtain ⟨s, rfl⟩ | rfl := transacts_world hp <;> rfl
      | _ => rw [hp.2]; rfl
    exact hclock ▸ .single ht
  · exact .single ht

theorem executes_later {α : Type} {p : UseCase α} {x : Except QueueError α}
    (h : Executes E.Answers p w x w') : Later E w.clock w'.clock := by
  obtain ⟨calls, h⟩ := h
  induction h with
  | done a w => exact .refl
  | reject e w => exact .refl
  | await hc hk ih => exact (answers_later hc).trans ih

theorem still_of_issues {α : Type} {p : UseCase α} (hp : Issues Reads p)
    {x : Except QueueError α} (h : Executes E.Answers p w x w') : Still E w w' :=
  issues_executes still_refl still_trans (fun hc h => answers_still hc h) hp h

theorem calm_of_issues {α : Type} {p : UseCase α} (hp : Issues Quiet p)
    {x : Except QueueError α} (h : Executes E.Answers p w x w') : Calm E w w' :=
  issues_executes calm_refl calm_trans (fun hc h => answers_calm hc h) hp h

end SpotQueue.Frame
