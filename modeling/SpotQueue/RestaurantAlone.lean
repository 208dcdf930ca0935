import SpotQueue.Requests
import SpotQueue.RestaurantView
import SpotQueue.StaffIsolation
import SpotQueue.Awaits.AsyncProjection

namespace SpotQueue.RestaurantAlone

open SpotQueue.Entity SpotQueue.Repository SpotQueue.Environment SpotQueue.UseCases SpotQueue.Frame
open SpotQueue.Guards SpotQueue.Stewardship SpotQueue.DurableRows SpotQueue.Requests
open SpotQueue.RestaurantView SpotQueue.Simulation
open SpotQueue.Awaits.AsyncProgram SpotQueue.Awaits.AsyncProtocol SpotQueue.Awaits.LabelledRun
open SpotQueue.Awaits.AsyncPool SpotQueue.Awaits.AsyncProjection

variable {ι : Type} {E : Env} {ops : ι → Operation} {op : Operation} {w w' v : World}
  {tr : Interleaving ι} {q : Underway ι} {r : Uuid} {home : String} {c : Call}
  {m : QueueEntry → Prop} {α : Type}

/-- Surroundings in which the clock may go on for as long as it likes between two calls. -/
def unhurried (E : Env) : Env := { E with tick := Relation.TransGen E.tick }

/-- To a restaurant a ticket of another one is as good as none. -/
inductive Blurred (r : Uuid) : Likeness Call Answer QueueError
  | same {c : Call} (x : Except QueueError (Answer c)) : Blurred r c x x
  | foreign {q : String} {e : QueueEntry} (he : e.restaurantId ≠ r) :
    Blurred r (.findById q) (.ok (some e)) (.ok none)

theorem heedless_findOwned (hhome : .ofText home = r) (q : String) :
    Heedless (Blurred r) (findOwned home q) := by
  constructor
  · intro x y hxy
    cases hxy with
    | same => rfl
    | @foreign _ e he =>
      have hother : e.restaurantId.text ≠ home := by
        rintro rfl
        exact he (by rw [← hhome, Uuid.ofText_text])
      change (if _ then _ else _) = _
      rw [if_pos hother]
      rfl
  · intro x
    obtain err | o := x
    · trivial
    cases o with
    | none => trivial
    | some e =>
      change Heedless _ (if _ then _ else _)
      split <;> trivial

theorem heedless_execute (hhome : .ofText op.restaurantId = r) : Heedless (Blurred r) op.execute := by
  have hproceeds : ∀ {α : Type} {p : UseCase α}, Issues (Proceeds op) p → Heedless (Blurred r) p := by
    intro α p hp
    refine heedless_issues hp fun c x y hc hxy => ?_
    cases hxy with
    | same => rfl
    | foreign => exact hc.elim
  obtain h | ⟨q, f, -, hp, hf⟩ := execute_proceeds op
  · exact hproceeds h
  · rw [hp]
    exact heedless_bind (heedless_findOwned hhome q) fun found => hproceeds (hf found)

section answers

theorem transacts_view {result result' : Except QueueError Store} {a : α} {x : Except QueueError α}
    (hresult : result' = result.map (view r)) (hstore : v.store = view r w.store)
    (hclock : v.clock = w.clock) (h : Transacts result a w x w') :
    ∃ v', Transacts result' a v x v' ∧ v'.store = view r w'.store ∧ v'.clock = w'.clock := by
  subst hresult
  cases result with
  | error err =>
    obtain ⟨hx, rfl⟩ := h
    exact ⟨v, ⟨hx, rfl⟩, hstore, hclock⟩
  | ok s =>
    obtain ⟨hx, rfl⟩ := h
    exact ⟨_, ⟨hx, rfl⟩, rfl, hclock⟩

/-- What one of the restaurant's operations asks of the whole database can be asked
of the view, with an answer that the operation cannot tell from the true one. -/
theorem performs_view {x : Except QueueError (Answer c)} (hhome : .ofText op.restaurantId = r)
    (hallows : (stewardship op.restaurantId).allows m c) (hm : ∀ d, m d → Stored op.restaurantId w.store d)
    (href : Referenced w.store) (hasks : Asks op c)
    (hfresh : ∀ e changedBy, c = .createWithHistory e changedBy → e.id ∉ w.store.entries.map (·.id))
    (hcustomer : ∀ u ∈ customer op, ∀ e ∈ w.store.entries, e.userId = some (.ofText u) →
      e.restaurantId = r)
    (hstore : v.store = view r w.store) (hclock : v.clock = w.clock) (h : E.Performs c w x w') :
    ∃ y v', E.Performs c v y v' ∧ Blurred r c x y ∧ v'.store = view r w'.store ∧
      v'.clock = w'.clock := by
  have hwritten : written c v.store v.clock = (written c w.store w.clock).map (view r) := by
    rw [hstore, hclock]
    refine written_view hhome hallows hm href fun e changedBy hc => ⟨hfresh e changedBy hc, ?_⟩
    subst hc
    obtain ⟨input, rfl, hrow⟩ := hasks
    intro u hu
    rw [hrow.userId] at hu
    obtain ⟨text, htext, rfl⟩ := Option.map_eq_some_iff.mp hu
    exact hcustomer text htext
  have hsilent : w' = w → v.store = view r w'.store ∧ v.clock = w'.clock := by
    rintro rfl
    exact ⟨hstore, hclock⟩
  cases c with
  | now =>
    obtain ⟨rfl, hw⟩ := h
    exact ⟨_, v, ⟨rfl, rfl⟩, hclock ▸ .same _, hsilent hw⟩
  | randomUUID | getRestaurantStatus | checkAvailability | predictEta | addJob | publishToMlEta =>
    exact ⟨x, v, ⟨h.1, rfl⟩, .same x, hsilent h.2⟩
  | assignTables | releaseTables | redisSet | redisDel | broadcastToRestaurant | sendToTicket =>
    obtain ⟨hx, rfl⟩ := h
    exact ⟨x, _, ⟨hx, rfl⟩, .same x, hstore, hclock⟩
  | findById q =>
    obtain ⟨rfl, hw⟩ := h
    refine ⟨_, v, ⟨rfl, rfl⟩, ?_, hsilent hw⟩
    rw [hstore]
    change Blurred r (.findById q) (.ok (w.store.find (.ofText q)))
      (.ok ((view r w.store).find (.ofText q)))
    rw [view_find]
    cases w.store.find (.ofText q) with
    | none => exact .same _
    | some e =>
      by_cases he : e.restaurantId = r
      · rw [Option.filter_some_pos (by simpa using he)]
        exact .same _
      · rw [Option.filter_some_neg (by simpa using he)]
        exact .foreign he
  | findActiveEntries restaurantId =>
    obtain ⟨⟨l, hl, hx⟩, hw⟩ := h
    have hr : .ofText restaurantId = r := hasks ▸ hhome
    refine ⟨x, v, ⟨⟨l, ?_, hx⟩, rfl⟩, .same x, hsilent hw⟩
    rw [hr] at hl ⊢
    rw [hstore]
    exact view_isLine.mpr hl
  | findActiveByPhone restaurantId phone =>
    have hr : .ofText restaurantId = r := hasks ▸ hhome
    refine ⟨x, v, ⟨?_, rfl⟩, .same x, hsilent h.2⟩
    rw [hr, hstore, view_activeByPhone, ← hr]
    exact h.1
  | findActiveByUserId userId =>
    refine ⟨x, v, ⟨?_, rfl⟩, .same x, hsilent h.2⟩
    rw [hstore, view_activeByUserId (hcustomer userId hasks)]
    exact h.1
  | getRegistrationMetrics restaurantId =>
    have hr : .ofText restaurantId = r := hasks ▸ hhome
    refine ⟨x, v, ⟨?_, rfl⟩, .same x, hsilent h.2⟩
    rw [hstore, view_metrics hr, hclock]
    exact h.1
  | countPeopleAheadAtJoin restaurantId joinedAt =>
    have hr : .ofText restaurantId = r := hasks ▸ hhome
    refine ⟨x, v, ⟨?_, rfl⟩, .same x, hsilent h.2⟩
    rw [hstore, view_aheadAtJoin hr]
    exact h.1
  | findActiveTableAssignments queueEntryId =>
    refine ⟨x, v, ⟨?_, rfl⟩, .same x, hsilent h.2⟩
    rw [hstore, view_activeAssignments ((known_houses hm hallows).mpr hhome)]
    exact h.1
  | createWithHistory | assignTablesWithHistory | updateStatusWithHistory | batchUpdatePositions =>
    obtain ⟨v', hp, hv⟩ := transacts_view hwritten hstore hclock h
    exact ⟨x, v', hp, .same x, hv⟩
  | save | releaseTableAssignments =>
    obtain ⟨hx, rfl⟩ := h
    exact ⟨x, _, ⟨hx, rfl⟩, .same x, Except.ok.inj hwritten, hclock⟩

end answers

section runs

/-- The operation is for the restaurant. -/
def For (r : Uuid) (ops : ι → Operation) (i : ι) : Prop := .ofText (ops i).restaurantId = r

instance : DecidablePred (For r ops) := fun i => by
  unfold For
  infer_instance

/-- One of the restaurant's operations is a join of this user. -/
def Visits (r : Uuid) (ops : ι → Operation) (u : Uuid) : Prop :=
  ∃ i, For r ops i ∧ ∃ userId ∈ customer (ops i), .ofText userId = u

/-- The users who join at the restaurant have to do with no other one: the search
for a ticket that a user already holds is not confined to a restaurant. -/
structure Regulars (r : Uuid) (ops : ι → Operation) (s : Store) : Prop where
  stored : ∀ e ∈ s.entries, ∀ u ∈ e.userId, Visits r ops u → e.restaurantId = r
  joining : ∀ i, ∀ userId ∈ customer (ops i), Visits r ops (.ofText userId) → For r ops i

def inserted : Call → Option QueueEntry
  | .createWithHistory e _ => some e
  | _ => none

/-- No id is drawn that is already taken. -/
def FreshIds (tr : Interleaving ι) : Prop :=
  ∀ step ∈ tr, ∀ e ∈ inserted step.label.call, e.id ∉ step.before.state.store.entries.map (·.id)

/-- How the restaurant's own database stands to the one it shares. -/
structure Mirrors (E : Env) (r : Uuid) (ops : ι → Operation) (w v : World) : Prop where
  store : v.store = view r w.store
  clock : Later E v.clock w.clock
  referenced : Referenced w.store
  regulars : Regulars r ops w.store

/-- Whoever makes the call, it leaves the references and the regulars as they are. -/
theorem regulars_kept {i : ι} {x : Except QueueError (Answer c)}
    (hallows : (stewardship (ops i).restaurantId).allows m c)
    (hm : ∀ d, m d → Stored (ops i).restaurantId w.store d) (hasks : Asks (ops i) c)
    (h : E.Answers c w x w') (hregulars : Regulars r ops w.store) : Regulars r ops w'.store := by
  refine ⟨fun e he u hu hvisits => ?_, hregulars.joining⟩
  obtain ⟨d, hd, hde⟩ | ⟨changedBy, rfl⟩ := answers_rows hallows hm h he
  · rw [hde.restaurantId_eq]
    refine hregulars.stored d hd u ?_ hvisits
    rw [hde] at hu
    exact hu
  · obtain ⟨input, hinput, hrow⟩ := hasks
    rw [hrow.userId] at hu
    obtain ⟨userId, huserId, rfl⟩ := Option.map_eq_some_iff.mp hu
    have hfor : For r ops i := hregulars.joining i userId (by rw [hinput]; exact huserId) hvisits
    rw [hrow.restaurantId, ← hfor, hinput]
    rfl

theorem mirrors_own {i : ι} {x : Except QueueError (Answer c)} (hfor : For r ops i)
    (hallows : (stewardship (ops i).restaurantId).allows m c)
    (hm : ∀ d, m d → Stored (ops i).restaurantId w.store d) (hasks : Asks (ops i) c)
    (hfresh : ∀ e ∈ inserted c, e.id ∉ w.store.entries.map (·.id)) (hmirrors : Mirrors E r ops w v)
    (h : E.Answers c w x w') :
    ∃ y v', (unhurried E).Answers c v y v' ∧ Blurred r c x y ∧ Mirrors E r ops w' v' := by
  have href := answers_referenced hallows hm h hmirrors.referenced
  have hregulars := regulars_kept hallows hm hasks h hmirrors.regulars
  obtain ⟨t, ht, hp | ⟨hdependency, hfails, rfl, rfl⟩⟩ := h
  · have hcustomer : ∀ u ∈ customer (ops i), ∀ e ∈ w.store.entries, e.userId = some (.ofText u) →
        e.restaurantId = r :=
      fun u hu e he heu => hmirrors.regulars.stored e he _ heu ⟨i, hfor, u, hu, rfl⟩
    obtain ⟨y, v', hperforms, hxy, hstore, hclock⟩ :=
      performs_view (w := w.at t) (v := v.at t) hfor hallows hm
      hmirrors.referenced hasks (fun e _ hc => hfresh e (hc ▸ rfl)) hcustomer hmirrors.store rfl hp
    exact ⟨y, v', ⟨t, .tail' hmirrors.clock ht, .inl hperforms⟩, hxy,
      ⟨hstore, hclock ▸ .refl, href, hregulars⟩⟩
  · exact ⟨_, v.at t, ⟨t, .tail' hmirrors.clock ht, .inr ⟨hdependency, hfails, rfl, rfl⟩⟩, .same _,
      ⟨hmirrors.store, .refl, href, hregulars⟩⟩

theorem mirrors_other {i : ι} {x : Except QueueError (Answer c)} (hfor : ¬ For r ops i)
    (hallows : (stewardship (ops i).restaurantId).allows m c)
    (hm : ∀ d, m d → Stored (ops i).restaurantId w.store d) (hasks : Asks (ops i) c)
    (hmirrors : Mirrors E r ops w v) (h : E.Answers c w x w') : Mirrors E r ops w' v := by
  refine ⟨?_, hmirrors.clock.trans (answers_later h),
    answers_referenced hallows hm h hmirrors.referenced,
    regulars_kept hallows hm hasks h hmirrors.regulars⟩
  rw [hmirrors.store]
  obtain err | a := x
  · rw [(rejected_still h).store]
  · exact (written_elsewhere hfor hallows hm hmirrors.referenced (answers_written h)).symm

theorem projected_run [DecidableEq ι] (href : Referenced w.store) (hregulars : Regulars r ops w.store)
    (hfresh : FreshIds tr) (hrun : Run (Interleaves E.Answers) (together ops w) tr q) :
    ∃ tr' v, Run (Interleaves (unhurried E).Answers)
        (together (fun i : {i // For r ops i} => ops i) (w.commit (view r w.store))) tr'
        (only (For r ops) q.bodies v) ∧
      List.Forall₂ (Mirrored (Blurred r)) (tr.filter fun step => For r ops step.label.body) tr' ∧
      Mirrors E r ops q.state v := by
  have hasks := interleaves_calls (fun i => asks_execute (ops i)) hrun
  refine interleaves_project (For r ops) (Mirrors E r ops) (t := w.commit (view r w.store))
    (G := fun step => Stewarded ops step ∧ Asks (ops step.label.body) step.label.call ∧
      ∀ e ∈ inserted step.label.call, e.id ∉ step.before.state.store.entries.map (·.id))
    (fun i hi => heedless_execute hi) ?_ ?_ ?_ hrun
    fun step hstep => ⟨run_stewarded hrun step hstep, hasks step hstep, hfresh step hstep⟩
  · exact ⟨rfl, .refl, href, hregulars⟩
  · rintro q i c x q' v hi hmirrors hc ⟨⟨m, hallows, hm⟩, hasked, hids⟩
    exact mirrors_own hi hallows hm hasked hids hmirrors hc
  · rintro q i c x q' v hi hmirrors hc ⟨⟨m, hallows, hm⟩, hasked, -⟩
    exact mirrors_other hi hallows hm hasked hmirrors hc

/-- In any interleaving of any operations for any restaurants, whichever calls fail,
the operations for one restaurant run as if they were alone, on the rows of the
restaurant: they make the same calls, end in the same way and leave the same rows. -/
theorem restaurant_alone [DecidableEq ι] (href : Referenced w.store) (hregulars : Regulars r ops w.store)
    (hfresh : FreshIds tr) (hrun : Run (Interleaves E.Answers) (together ops w) tr q) :
    ∃ tr' v, Run (Interleaves (unhurried E).Answers)
        (together (fun i : {i // For r ops i} => ops i) (w.commit (view r w.store))) tr'
        (only (For r ops) q.bodies v) ∧
      List.Forall₂ (Mirrored (Blurred r)) (tr.filter fun step => For r ops step.label.body) tr' ∧
      v.store = view r q.state.store := by
  obtain ⟨tr', v, hrun', htr, hmirrors⟩ := projected_run href hregulars hfresh hrun
  exact ⟨tr', v, hrun', htr, hmirrors.store⟩

end runs

section witness

open SpotQueue.StaffIsolation

/-- At restaurant A a user joins and a host is after the ticket of restaurant B,
which its own host cancels meanwhile. -/
def acrossTown : Fin 3 → Operation
  | 0 => joinOnline RESTAURANT_A "+15551234567"
  | 1 => cancelFor RESTAURANT_A TICKET_B "NO_SHOW"
  | 2 => cancelFor RESTAURANT_B TICKET_B "WALK_OUT"

def crossing : Interleaving (Fin 3) × Underway (Fin 3) :=
  interleave smooth.reply (together acrossTown twoRestaurants) ((List.replicate 16 [0, 1, 2]).flatten)

theorem crossing_fresh : FreshIds crossing.1 := by
  unfold FreshIds
  decide +kernel

theorem twoRestaurants_regulars {ops : ι → Operation}
    (hops : ∀ i, For r ops i ∨ customer (ops i) = none) : Regulars r ops twoRestaurants.store := by
  refine ⟨fun e he u hu _ => ?_, fun i userId huserId _ => ?_⟩
  · have hnobody : ∀ e ∈ twoRestaurants.store.entries, e.userId = none := by decide
    rw [hnobody e he] at hu
    cases hu
  · refine (hops i).resolve_right fun hnone => ?_
    rw [hnone] at huserId
    cases huserId

theorem restaurant_alone_crossing :
    (view (.ofText RESTAURANT_A) crossing.2.state.store).entries.length = 2 ∧
      ∃ tr v, Run (Interleaves (unhurried smooth.env).Answers)
          (together (fun i : {i // For (.ofText RESTAURANT_A) acrossTown i} => acrossTown i)
            (twoRestaurants.commit (view (.ofText RESTAURANT_A) twoRestaurants.store))) tr
          (only (For (.ofText RESTAURANT_A) acrossTown) crossing.2.bodies v) ∧
        List.Forall₂ (Mirrored (Blurred (.ofText RESTAURANT_A)))
          (crossing.1.filter fun step => For (.ofText RESTAURANT_A) acrossTown step.label.body) tr ∧
        v.store = view (.ofText RESTAURANT_A) crossing.2.state.store :=
  ⟨by decide +kernel, restaurant_alone ⟨by decide, by decide⟩ (twoRestaurants_regulars (by decide))
    crossing_fresh (interleave_run smooth.reply_answers _ _)⟩

end witness

end SpotQueue.RestaurantAlone
