import SpotQueue.Queries
import SpotQueue.SequentialRun

namespace SpotQueue.Simulation

open SpotQueue.Entity SpotQueue.Repository SpotQueue.Environment SpotQueue.UseCases
open SpotQueue.Queries SpotQueue.Line SpotQueue.SequentialRun SpotQueue.Awaits.AsyncProgram
  SpotQueue.Awaits.LabelledRun

/-- Surroundings that answer in one way: the clock moves by one with every call
and between operations, and the listed calls are rejected. -/
structure Script where
  fails : Call → Bool
  eta : Uuid → Nat → Nat → Nat

def Script.env (script : Script) : Env where
  tick a b := b = a + 1
  pause a b := b = a + 1
  fails c := script.fails c = true
  eta r ahead partySize minutes := minutes = script.eta r ahead partySize
  startOfDay _ := 0

/-- Nothing fails, and a party waits a minute for everyone up to its last guest. -/
def smooth : Script := ⟨fun _ => false, fun _ ahead partySize => ahead + partySize⟩

theorem nobody : (none : Option String) ≠ some "" := by decide

theorem someStaff : some "staff" ≠ some "" := by decide

theorem someUser : some "u" ≠ some "" := by decide

/-- A party of two at the counter. -/
def walkIn (restaurantId phone : String) : Operation :=
  .register ⟨restaurantId, none, some "staff", "Guest", phone, 2, none, none, none, nobody, someStaff⟩

/-- A party of two on the phone, as user u. -/
def joinOnline (restaurantId phone : String) : Operation :=
  .register ⟨restaurantId, some "u", none, "Guest", phone, 2, none, none, none, someUser, nobody⟩

def assignTo (restaurantId queueEntryId tableId : String) : Operation :=
  .assignTable ⟨restaurantId, queueEntryId, "staff", [⟨tableId, 2⟩], by simp⟩

def seatAt (restaurantId queueEntryId tableId : String) : Operation :=
  .seatParty ⟨restaurantId, queueEntryId, "staff", [tableId]⟩

def skipBy (restaurantId queueEntryId : String) (skipPositions : Option Nat) : Operation :=
  .skipParty ⟨restaurantId, queueEntryId, "staff", "late", skipPositions⟩

def cancelFor (restaurantId queueEntryId reason : String) : Operation :=
  .cancelQueueEntry ⟨restaurantId, queueEntryId, "staff", reason, none⟩

/-- Two join, and the first lets the second past. -/
def letPast : List Operation := [walkIn "r" "1", walkIn "r" "2", skipBy "r" "7" (some 1)]

theorem env_tick (script : Script) (a b : Time) (h : script.env.tick a b) : a ≤ b :=
  h ▸ Nat.le_succ a

theorem env_pause (script : Script) (a b : Time) (h : script.env.pause a b) : a < b :=
  h ▸ Nat.lt_succ_self a

instance : DecidablePred Call.Dependency := fun c => by
  apply Call.casesOn (motive := fun c => Decidable c.Dependency) c <;> intros <;>
    unfold Call.Dependency <;> infer_instance

def transact {α : Type} (result : Except QueueError Store) (a : α) (w : World) :
    Except QueueError α × World :=
  match result with
  | .ok s => (.ok a, w.commit s)
  | .error e => (.error e, w)

theorem transact_transacts {α : Type} (result : Except QueueError Store) (a : α) (w : World) :
    Transacts result a w (transact result a w).1 (transact result a w).2 := by
  cases result <;> exact ⟨rfl, rfl⟩

/-- orderBy a date desc, the first one. -/
def latest {α : Type} (date : α → Time) (l : List α) : Option α :=
  (l.insertionSort fun a b => date b ≤ date a).head?

def Script.perform (script : Script) : (c : Call) → World → Except QueueError (Answer c) × World
  | .now, w => (.ok w.clock, w)
  | .randomUUID, w => (.ok (.ofText (toString w.clock)), w)
  | .getRestaurantStatus restaurantId, w =>
    (.ok ⟨restaurantId, false, none, true, some QUEUE_PRO⟩, w)
  | .checkAvailability _ _, w => (.ok ⟨true, true, false, 0⟩, w)
  | .assignTables _ tables, w =>
    (.ok (), { w with occupancy := fun t => w.occupancy t + assignedCount tables t })
  | .releaseTables _ tables, w =>
    (.ok (), { w with occupancy := fun t => w.occupancy t - releasedCount tables t })
  | .predictEta restaurantId ahead partySize, w =>
    (.ok (script.eta (.ofText restaurantId) ahead partySize), w)
  | .findById id, w => (.ok (w.store.findById id), w)
  | .findActiveEntries restaurantId, w => (.ok (w.store.findActiveEntries restaurantId), w)
  | .findActiveByPhone restaurantId phone, w =>
    (.ok (w.store.activeByPhone (.ofText restaurantId) phone).head?, w)
  | .findActiveByUserId userId, w =>
    (.ok (latest (·.joinedAt) (w.store.activeByUserId (.ofText userId))), w)
  | .getRegistrationMetrics restaurantId, w =>
    (.ok (w.store.getRegistrationMetrics restaurantId 0), w)
  | .countPeopleAheadAtJoin restaurantId joinedAt, w =>
    (.ok (w.store.countPeopleAheadAtJoin restaurantId joinedAt), w)
  | .createWithHistory e changedBy, w =>
    transact (w.store.createWithHistory e changedBy w.clock) e w
  | .assignTablesWithHistory e tableIds assignedBy previousStatus, w =>
    transact (w.store.assignTablesWithHistory e tableIds assignedBy previousStatus w.clock) e w
  | .updateStatusWithHistory params, w =>
    transact (w.store.updateStatusWithHistory params w.clock) params.queueEntry w
  | .save e, w => (.ok (), w.commit (w.store.save e))
  | .findActiveTableAssignments queueEntryId, w =>
    (.ok (w.store.activeAssignments (.ofText queueEntryId)), w)
  | .releaseTableAssignments queueEntryId, w =>
    (.ok (), w.commit (w.store.releaseTableAssignments queueEntryId w.clock))
  | .batchUpdatePositions us, w => transact (w.store.batchUpdatePositions us w.clock) () w
  | .redisSet key state, w => (.ok (), { w with cache := Function.update w.cache key (some state) })
  | .redisDel key, w => (.ok (), { w with cache := Function.update w.cache key none })
  | .broadcastToRestaurant restaurantId event data, w =>
    (.ok (), w.deliver (.toRestaurant restaurantId event data))
  | .sendToTicket ticketId event data, w => (.ok (), w.deliver (.toTicket ticketId event data))
  | .addJob _, w => (.ok (), w)
  | .publishToMlEta _, w => (.ok (), w)

def Script.reply (script : Script) (c : Call) (w : World) : Except QueueError (Answer c) × World :=
  if c.Dependency ∧ script.fails c = true then (.error .dependency, w.at (w.clock + 1))
  else script.perform c (w.at (w.clock + 1))

theorem latest_spec {α : Type} {date : α → Time} {l : List α} {a : α} (ha : a ∈ latest date l) :
    a ∈ l ∧ ∀ b ∈ l, date b ≤ date a := by
  let later : α → α → Prop := fun a b => date b ≤ date a
  have : Std.Total later := ⟨fun a b => Nat.le_total _ _⟩
  have : IsTrans α later := ⟨fun a b c hab hbc => Nat.le_trans hbc hab⟩
  have hsorted : (l.insertionSort later).Pairwise later := List.pairwise_insertionSort _ _
  have hmem : ∀ b, b ∈ l.insertionSort later ↔ b ∈ l := fun b => List.mem_insertionSort _
  obtain ⟨rest, hrest⟩ : ∃ rest, l.insertionSort later = a :: rest := List.head?_eq_some_iff.mp ha
  rw [hrest] at hsorted hmem
  refine ⟨(hmem a).mp List.mem_cons_self, fun b hb => ?_⟩
  obtain rfl | hb := List.mem_cons.mp ((hmem b).mpr hb)
  · exact Nat.le_refl _
  · exact (List.pairwise_cons.mp hsorted).1 b hb

theorem latest_none {α : Type} {date : α → Time} {l : List α} (h : latest date l = none) : l = [] := by
  have hperm := List.perm_insertionSort (fun a b : α => date b ≤ date a) l
  rw [latest, List.head?_eq_none_iff] at h
  rw [h] at hperm
  exact hperm.nil_eq.symm

theorem Script.perform_performs (script : Script) (c : Call) (w : World) :
    script.env.Performs c w (script.perform c w).1 (script.perform c w).2 := by
  cases c with
  | randomUUID => exact ⟨⟨_, rfl⟩, rfl⟩
  | getRestaurantStatus | checkAvailability => exact ⟨⟨_, rfl⟩, rfl⟩
  | predictEta => exact ⟨⟨_, rfl, rfl⟩, rfl⟩
  | findActiveEntries restaurantId => exact ⟨⟨_, findActiveEntries_isLine _ _, rfl⟩, rfl⟩
  | findActiveByPhone restaurantId phone =>
    refine ⟨⟨_, fun e he => List.mem_of_mem_head? he, fun h => List.head?_eq_none_iff.mp h, rfl⟩, rfl⟩
  | findActiveByUserId userId => exact ⟨⟨_, fun _ => latest_spec, latest_none, rfl⟩, rfl⟩
  | findActiveTableAssignments => exact ⟨⟨_, .refl _, rfl⟩, rfl⟩
  | createWithHistory | assignTablesWithHistory | updateStatusWithHistory | batchUpdatePositions =>
    exact transact_transacts _ _ _
  | _ => exact ⟨rfl, rfl⟩

theorem Script.reply_answers (script : Script) (c : Call) (w : World) :
    script.env.Answers c w (script.reply c w).1 (script.reply c w).2 := by
  refine ⟨w.clock + 1, rfl, ?_⟩
  rw [Script.reply]
  split
  · rename_i h
    exact .inr ⟨h.1, h.2, rfl, rfl⟩
  · exact .inl (script.perform_performs c _)

theorem Script.run_executes {α : Type} (script : Script) (p : UseCase α) (w : World) :
    Executes script.env.Answers p w (run script.reply p w).2.1 (run script.reply p w).2.2 :=
  ⟨_, run_traces script.reply_answers p w⟩

def Script.replyQuery (script : Script) (c : QueryCall) (w : World) :
    Except QueueError (QueryAnswer c) × World :=
  match c with
  | .shared c => script.reply c w
  | .getActiveQueueMetrics restaurantId =>
    (.ok (getActiveQueueMetrics w.store restaurantId), w.at (w.clock + 1))
  | .findActiveByUserIdAndRestaurantId restaurantId userId =>
    (.ok (latest (·.joinedAt)
      (activeByUserIdAndRestaurantId w.store (.ofText restaurantId) (.ofText userId))),
      w.at (w.clock + 1))

theorem Script.replyQuery_answers (script : Script) {H : Answers Call Answer QueueError World}
    (hshared : ∀ c w, H c w (script.reply c w).1 (script.reply c w).2) (c : QueryCall) (w : World) :
    QueryAnswers script.env H c w (script.replyQuery c w).1 (script.replyQuery c w).2 := by
  cases c with
  | shared c => exact hshared c w
  | getActiveQueueMetrics restaurantId => exact ⟨_, rfl, rfl, .inr rfl⟩
  | findActiveByUserIdAndRestaurantId restaurantId userId =>
    exact ⟨_, rfl, rfl, .inr ⟨_, fun _ => latest_spec, latest_none, rfl⟩⟩

theorem answered_ok {calls : List (Event Call Answer QueueError World)}
    (h : (calls.all fun ev => ev.answer.toOption.isSome) = true) :
    ∀ ev ∈ calls, ∃ a, ev.answer = .ok a := by
  intro ev hev
  have hsome := List.all_eq_true.mp h ev hev
  cases hanswer : ev.answer with
  | ok a => exact ⟨a, rfl⟩
  | error e => simp [hanswer, Except.toOption] at hsome

/-- One operation on its own, one tick after the last. -/
def Script.execute (script : Script) (w : World) (op : Operation) : Transition World Executed :=
  let result := run script.reply op.execute (w.at (w.clock + 1))
  ⟨w, ⟨op, result.1, result.2.1⟩, World.respond result.2.2 result.2.1⟩

theorem Script.execute_sequential (script : Script) (w : World) (op : Operation) :
    Sequential script.env w (script.execute w op).label (script.execute w op).after :=
  .executes rfl (run_traces script.reply_answers _ _)

/-- The history of the operations, from a given world. -/
def Script.history (script : Script) (w : World) : List Operation → History
  | [] => []
  | op :: ops => script.execute w op :: script.history (script.execute w op).after ops

def Script.final (script : Script) (w : World) (ops : List Operation) : World :=
  ops.foldl (fun w op => (script.execute w op).after) w

/-- One party waits, with ticket 7. -/
abbrev oneWaiting : World := smooth.final (.empty 0) [walkIn "r" "1"]

/-- The stored row with this id at the end of the operations, if there is one. -/
def Script.row (script : Script) (w : World) (ops : List Operation) (id : String) : Option QueueEntry :=
  (script.final w ops).store.findById id

theorem Script.history_operations (script : Script) (w : World) (ops : List Operation) :
    (script.history w ops).map (·.label.operation) = ops := by
  induction ops generalizing w with
  | nil => rfl
  | cons op ops ih => exact congrArg (op :: ·) (ih _)

theorem Script.operation_mem {script : Script} {w : World} {ops : List Operation}
    {step : Transition World Executed} (h : step ∈ script.history w ops) :
    step.label.operation ∈ ops := by
  rw [← script.history_operations w ops]
  exact List.mem_map_of_mem h

theorem Script.history_run (script : Script) (w : World) (ops : List Operation) :
    Run (Sequential script.env) w (script.history w ops) (script.final w ops) := by
  induction ops generalizing w with
  | nil => exact .nil
  | cons op ops ih => exact run_cons (script.execute_sequential w op) (ih _)

end SpotQueue.Simulation
