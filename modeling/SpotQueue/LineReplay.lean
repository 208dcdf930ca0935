import SpotQueue.RankedLine
import SpotQueue.StaffLine

namespace SpotQueue.LineReplay

open SpotQueue.Entity SpotQueue.Repository SpotQueue.Environment SpotQueue.Recalculator
open SpotQueue.UseCases SpotQueue.Frame SpotQueue.Line SpotQueue.Recalculation SpotQueue.Seating
open SpotQueue.Leaving SpotQueue.Registration SpotQueue.StoreChanges SpotQueue.RowChanges
open SpotQueue.SettledLine SpotQueue.NoOvertaking SpotQueue.StaffLine SpotQueue.SequentialRun
open SpotQueue.Simulation SpotQueue.RankedLine
open SpotQueue.Awaits.AsyncProgram SpotQueue.Awaits.LabelledRun

variable {E : Env} {s s' : Store} {r : Uuid} {l m : List QueueEntry} {a : Ranked Uuid}
  {e d : QueueEntry} {op : Operation} {row : StatusHistory} {w w' : World} {tr : History}
  {start : Time} {g : QueueEntry → QueueEntry}

/-- The history rows an operation has added. -/
def recorded (step : Transition World Executed) : List StatusHistory :=
  step.after.store.history.drop step.before.store.history.length

def places : Operation → Nat
  | .skipParty input => input.skipPositions.getD 0
  | _ => 0

/-- What a history row says about a line. Assigning tables is the one operation
that does not recalculate afterwards. -/
def effect (op : Operation) (row : StatusHistory) : Action Uuid :=
  match row.previousStatus, row.currentStatus, op with
  | none, _, _ => .join row.queueEntryId
  | some _, .waiting, _ => .shift row.queueEntryId (places op)
  | some _, _, .assignTable _ => .vacate row.queueEntryId
  | some _, _, _ => .leave row.queueEntryId

def effects (r : Uuid) (tr : History) : List (Action Uuid) :=
  tr.flatMap fun step => if .ofText step.label.operation.restaurantId = r then
    (recorded step).map (effect step.label.operation) else []

/-- A restaurant's line as its status history tells it, each row read with the operation
that wrote it: seating a party and assigning it a table write the same row. -/
def replay (r : Uuid) (tr : History) : Ranked Uuid := (effects r tr).foldl act []

def place (e : QueueEntry) : Uuid × Option Nat := (e.id, e.position)

/-- The stored line of a restaurant, read by position and date of joining. -/
def Stands (s : Store) (r : Uuid) (a : Ranked Uuid) : Prop :=
  ∃ l, IsLine s r l ∧ l.map place = a.map fun p => (p.1, some p.2)

def ByDate (s : Store) : Prop := (s.entries.map (·.joinedAt)).Pairwise (· < ·)

/-- With no two dates alike there is one order to read a line in. -/
theorem line_unique (hdates : ByDate s) (hl : IsLine s r l) (hm : IsLine s r m) : l = m := by
  refine List.Perm.eq_of_pairwise (fun a b ha hb hab hba => ?_) hl.sorted hm.sorted
    (hl.perm.trans hm.perm.symm)
  have hdate : a.joinedAt = b.joinedAt := by
    unfold LineLE at hab hba
    grind
  have hkey : (s.entries.map (·.joinedAt)).Nodup := hdates.imp fun h => h.ne
  exact List.inj_on_of_nodup_map hkey ((isLine_mem hl).mp ha).1 ((isLine_mem hm).mp hb).1 hdate

theorem stands_line (hdates : ByDate s) (h : Stands s r a) (hline : IsLine s r l) :
    l.map place = a.map fun p => (p.1, some p.2) := by
  obtain ⟨m, hm, hplaces⟩ := h
  rwa [line_unique hdates hline hm]

theorem stands_tickets (hdates : ByDate s) (h : Stands s r a) (hline : IsLine s r l) :
    l.map (·.id) = tickets a := by
  have hplaces := congrArg (List.map Prod.fst) (stands_line hdates h hline)
  rwa [List.map_map, List.map_map] at hplaces

theorem byDate_rows {D : Time → Prop} (hrows : RowsChange D r s s') (h : ByDate s) : ByDate s' := by
  obtain ⟨f, hf, hrow⟩ := hrows
  have hsame : s'.entries.map (·.joinedAt) = s.entries.map (·.joinedAt) := by
    rw [hf, List.map_map]
    exact List.map_congr_left fun e he => rowChange_joinedAt (hrow e he).1
  rwa [ByDate, hsame]

/-- Rows rewritten without touching anything a line is read by. -/
theorem stands_map (hentries : s'.entries = s.entries.map g)
    (hg : ∀ e ∈ s.entries, ((g e).restaurantId = r ∧ (g e).status = .waiting) ↔
      (e.restaurantId = r ∧ e.status = .waiting))
    (hrow : ∀ e ∈ s.waiting r, place (g e) = place e ∧ (g e).joinedAt = e.joinedAt)
    (h : Stands s r a) : Stands s' r a := by
  obtain ⟨l, hline, hplaces⟩ := h
  have hl : ∀ e ∈ l, place (g e) = place e ∧ (g e).joinedAt = e.joinedAt :=
    fun e he => hrow e (hline.perm.mem_iff.mp he)
  refine ⟨l.map g, ⟨waiting_map hentries hg ▸ hline.perm.map g, ?_⟩, ?_⟩
  · rw [List.pairwise_map]
    refine hline.sorted.imp_of_mem fun {b c} hb hc hbc => ?_
    have hbp : (g b).position = b.position := congrArg Prod.snd (hl b hb).1
    have hcp : (g c).position = c.position := congrArg Prod.snd (hl c hc).1
    rwa [LineLE, hbp, hcp, (hl b hb).2, (hl c hc).2]
  · rw [List.map_map, ← hplaces]
    exact List.map_congr_left fun e he => (hl e he).1

/-- Rows that were given their index as position. -/
theorem stands_numbered (hentries : s'.entries = s.entries.map g) (hm : m.Perm (s.waiting r))
    (hg : ∀ e ∈ s.entries, SameTicket e (g e))
    (hrow : ∀ j e, m[j]? = some e → (g e).position = some (j + 1)) :
    Stands s' r (renumber (m.map (·.id))) := by
  have hwaiting := waiting_map (r := r) hentries fun e he => by rw [hg e he]
  have hplace : ∀ j e, (m.map g)[j]? = some e → e.position = some (j + 1) := by
    intro j e he
    rw [List.getElem?_map, Option.map_eq_some_iff] at he
    obtain ⟨d, hd, rfl⟩ := he
    exact hrow j d hd
  refine ⟨m.map g, ⟨hwaiting ▸ hm.map g, ?_⟩, ?_⟩
  · rw [List.pairwise_iff_getElem]
    intro i j hi hj hij
    simp only [LineLE, hplace i _ (List.getElem?_eq_getElem hi),
      hplace j _ (List.getElem?_eq_getElem hj)]
    omega
  · apply List.ext_getElem?
    intro j
    cases hj : m[j]? with
    | none => simp [renumber, hj]
    | some e =>
      have hid : (g e).id = e.id := by
        rw [hg e (waiting_mem.mp (hm.mem_iff.mp (List.mem_of_getElem? hj))).1]
      simp [renumber, hj, place, hid, hrow j e hj]

theorem stands_recalculates {q : String} (hdates : ByDate s) (h : Stands s (.ofText q) a)
    (hrec : Recalculates E q s s') :
    s'.history = s.history ∧ Stands s' (.ofText q) (renumber (tickets a)) := by
  obtain ⟨l, etas, t, hline, hetas, rfl⟩ := hrec
  have hlen := etasOf_length hetas
  refine ⟨rfl, ?_⟩
  rw [← stands_tickets hdates h hline]
  refine stands_numbered (Store.updatePositions_entries s _ t) hline.perm (fun e he => ?_)
    fun j e hj => ?_
  · obtain ⟨-, hkept⟩ | ⟨j, n, u, -, -, hmoved⟩ := renumber_cases (t := t) hline hlen he
    · rw [hkept]
      rfl
    · rw [hmoved]
      rfl
  · obtain ⟨n, u, -, hmoved⟩ := renumbered_row (t := t) hline hlen hj
    rw [hmoved]

theorem shiftedLine_tickets {i : Nat} (hkey : (l.map (·.id)).Nodup) (hi : l[i]? = some e) (k : Nat) :
    (shiftedLine l i k).map (·.id) = moveDown (l.map (·.id)) e.id k := by
  obtain ⟨hlt, rfl⟩ := List.getElem?_eq_some_iff.mp hi
  have hindex : (l.map (·.id)).idxOf l[i].id = i := by
    have hlt' : i < (l.map (·.id)).length := by simpa using hlt
    have hid : l[i].id = (l.map (·.id))[i] := by simp
    rw [hid]
    exact hkey.idxOf_getElem i hlt'
  rw [moveDown, hindex, shiftedLine, splice, hi, targetIndex, List.map_insertIdx, List.eraseIdx_map,
    List.length_map]

theorem stands_shifted {i k : Nat} {t : Time} (hdates : ByDate s) (h : Stands s r a)
    (hline : IsLine s r l) (hi : l[i]? = some e) :
    Stands (shiftedStore s l i k t) r (renumber (moveDown (tickets a) e.id k)) := by
  have hperm := shiftedLine_perm hi k
  have hkey : ((shiftedLine l i k).map (·.id)).Nodup :=
    (hperm.map _).nodup_iff.mpr (isLine_nodup hline)
  rw [← stands_tickets hdates h hline, ← shiftedLine_tickets (isLine_nodup hline) hi]
  refine stands_numbered (Store.updatePositions_entries s _ t) (hperm.trans hline.perm)
    (fun c hc => ?_) fun j c hj => ?_
  · obtain ⟨-, hkept⟩ | ⟨j, -, hmoved⟩ := reorder_cases (t := t) hline hperm hc
    · rw [hkept]
      rfl
    · rw [hmoved]
      rfl
  · rw [reordered_row hkey hj]

/-- A row that stops waiting takes its place with it; the others keep theirs. -/
theorem stands_vacated (hd : d.id = e.id) (hw : d.status ≠ .waiting)
    (hentries : s'.entries = (s.put d).entries) (h : Stands s r a) :
    Stands s' r (a.filter (·.1 ≠ e.id)) := by
  obtain ⟨l, hline, hplaces⟩ := h
  have hwaiting : s'.waiting r = (s.waiting r).filter (·.id ≠ e.id) := by
    rw [Store.waiting, hentries, Store.put_entries, List.filter_map, Store.waiting,
      List.filter_filter]
    have hkept : ∀ c ∈ s.entries, ((c.id ≠ e.id) ∧ c.restaurantId = r ∧ c.status = .waiting) ↔
        ((if c.id = d.id then d else c).restaurantId = r ∧
          (if c.id = d.id then d else c).status = .waiting) := by
      intro c hc
      rw [hd]
      split <;> simp_all
    rw [List.filter_congr (q := fun c => decide (c.id ≠ e.id) &&
      decide (c.restaurantId = r ∧ c.status = .waiting)) fun c hc => by
        simp only [Function.comp_apply, ← Bool.decide_and, decide_eq_decide]
        exact (hkept c hc).symm]
    refine (List.map_congr_left fun c hc => ?_).trans (List.map_id _)
    have hne : c.id ≠ d.id := by
      have hc := (List.mem_filter.mp hc).2
      rw [Bool.and_eq_true, decide_eq_true_eq] at hc
      exact hd ▸ hc.1
    exact if_neg hne
  refine ⟨l.filter (·.id ≠ e.id), ⟨hwaiting ▸ hline.perm.filter _,
    hline.sorted.sublist List.filter_sublist⟩, ?_⟩
  have hfilter := congrArg (List.filter fun p => p.1 ≠ e.id) hplaces
  rw [List.filter_map, List.filter_map] at hfilter
  exact hfilter

theorem tickets_vacated (id : Uuid) :
    tickets (a.filter (·.1 ≠ id)) = (tickets a).filter (· ≠ id) := by
  rw [tickets, tickets, List.filter_map]
  rfl

/-- An operation has added history rows, and they tell what became of its line. -/
def Replays (op : Operation) (a : Ranked Uuid) (s s' : Store) : Prop :=
  ∃ rows, s'.history = s.history ++ rows ∧
    Stands s' (.ofText op.restaurantId) ((rows.map (effect op)).foldl act a)

theorem replays_unwritten (hhistory : s'.history = s.history)
    (h : Stands s' (.ofText op.restaurantId) a) : Replays op a s s' :=
  ⟨[], by rw [hhistory, List.append_nil], h⟩

theorem effect_leave (hprevious : row.previousStatus.isSome) (hcurrent : row.currentStatus ≠ .waiting)
    (hop : ∀ input, op ≠ .assignTable input) : effect op row = .leave row.queueEntryId := by
  unfold effect
  split
  · rename_i hnone
    rw [hnone] at hprevious
    cases hprevious
  · exact (hcurrent ‹_›).elim
  · exact (hop _ rfl).elim
  · rfl

theorem effect_shift (hprevious : row.previousStatus.isSome) (hcurrent : row.currentStatus = .waiting) :
    effect op row = .shift row.queueEntryId (places op) := by
  unfold effect
  split
  · rename_i hnone
    rw [hnone] at hprevious
    cases hprevious
  · rfl
  · contradiction
  · contradiction

/-- A party that leaves, and the recalculation that closes the gap. -/
theorem replays_left {D : Time → Prop} {u : Store} (hdates : ByDate s) (he : e ∈ s.entries)
    (hw : e.status = .waiting) (hd : Leaves D e d) (hentries : u.entries = (s.put d).entries)
    (hhistory : u.history = s.history ++ [row]) (heffect : effect op row = .leave e.id)
    (hrec : Recalculates E op.restaurantId u s') (h : Stands s (.ofText op.restaurantId) a) :
    Replays op a s s' := by
  have hu := stands_vacated (leaves_id hd) (leaves_status hd) hentries h
  have hudates := byDate_rows (put_rows he (leaves_id hd) (.left hw hd) hentries) hdates
  obtain ⟨hkept, hs'⟩ := stands_recalculates hudates hu hrec
  refine ⟨[row], hkept.trans hhistory, ?_⟩
  rw [tickets_vacated] at hs'
  rw [List.map_singleton, heffect]
  exact hs'

theorem stands_touched (he : e ∈ s.entries) (hd : Touches e d)
    (hentries : s'.entries = (s.put d).entries) (h : Stands s r a) : Stands s' r a := by
  have hput : ∀ c ∈ s.entries, (if c.id = d.id then d else c) = c ∨
      c = e ∧ (if c.id = d.id then d else c) = d := by
    intro c hc
    obtain hput | hput := put_cases he (touches_id hd) hc
    · exact .inr hput
    · exact .inl hput
  refine stands_map hentries (fun c hc => ?_) (fun c hc => ?_) h
  · obtain heq | ⟨rfl, heq⟩ := hput c hc
    · rw [heq]
    · rw [heq, hd]
  · obtain heq | ⟨rfl, heq⟩ := hput c (waiting_mem.mp hc).1
    · rw [heq]
      exact ⟨rfl, rfl⟩
    · rw [heq, hd]
      exact ⟨rfl, rfl⟩

theorem skipParty_replays {input : SkipPartyInput} {x : Except QueueError SkipPartyOutput}
    (hfails : ¬ EssentialFails E) (hdates : ByDate w.store) (h : SkipOutcome E input w x w')
    (hs : Stands w.store (.ofText input.restaurantId) a) :
    Replays (.skipParty input) a w.store w'.store := by
  cases h with
  | refused hstill => exact replays_unwritten (by rw [hstill.store]) (hstill.store ▸ hs)
  | shifted _ _ _ _ _ hf _ => exact (hfails hf).elim
  | skipped hfound ha hv hrest =>
    have hrec := closeRanks_recalculates hfails (fun _ => issues_notifySkipped _ _ _ _) hrest
    have hentries := congrArg Store.entries hv.store
    have hhistory := congrArg Store.history hv.store
    refine replays_left hdates hfound.mem hfound.waiting (.skipped ha) hentries hhistory ?_ hrec hs
    exact effect_leave rfl (leaves_status (.skipped ha)) (by simp)
  | @reordered found l i k b _ u v _ hfound hk hline hi hu hv hrest =>
    have hshift : Change E (.skipParty input) (fun _ => True) w.store u.store :=
      .reorder ⟨hfound.id.symm, _, hk⟩ hline hi (by rw [hu.store]) (by simp [hu.store, shiftedStore])
    obtain ⟨d, hd, howned, hw, htouches⟩ := shifted_touch (k := k + 1) (t := u.clock) (a := b) hline hi
    rw [← hu.store] at hd
    have htouch : Change E (.skipParty input) (fun _ => True) u.store v.store :=
      .touch hd howned hw htouches (by rw [hv.store]; rfl) (by simp [hv.store])
    have hmoved := stands_shifted (k := k + 1) (t := u.clock) hdates hs hline hi
    rw [← hu.store] at hmoved
    have hentries : v.store.entries =
        (u.store.put (found.moved (targetIndex l i (k + 1) + 1) b)).entries := by
      rw [hv.store]
      rfl
    have htouched := stands_touched hd htouches hentries hmoved
    have hrec := recalculate_recalculates hfails (fun _ => issues_notifySkipped _ _ _ _) hrest
    obtain ⟨hkept, hs'⟩ := stands_recalculates
      (byDate_rows (change_rows htouch) (byDate_rows (change_rows hshift) hdates)) htouched hrec
    rw [tickets_renumber] at hs'
    have hhistory := congrArg Store.history hv.store
    rw [hu.store] at hhistory
    refine ⟨[_], hkept.trans hhistory, ?_⟩
    rw [List.map_singleton, effect_shift rfl hfound.waiting, places, hk]
    exact hs'

theorem stands_position {c : QueueEntry} (hplaces : l.map place = a.map fun p => (p.1, some p.2))
    (hc : c ∈ l) : ∃ p, c.position = some p := by
  have hmem : place c ∈ a.map fun p => (p.1, some p.2) := hplaces ▸ List.mem_map_of_mem hc
  obtain ⟨p, -, hp⟩ := List.mem_map.mp hmem
  exact ⟨p.2, (congrArg Prod.snd hp).symm⟩

theorem joined_waiting {hfresh : e.id ∉ s.entries.map (·.id)} {changedBy : String} {now : Time}
    (hw : e.status = .waiting) : (joinedStore s e hfresh changedBy now).waiting r =
      s.waiting r ++ if e.restaurantId = r then [e] else [] := by
  simp only [Store.waiting, joinedStore, Store.log_entries, Store.insert_entries, List.filter_append]
  congr 1
  by_cases hr : e.restaurantId = r
  · simp [hr, hw]
  · simp [hr]

/-- A new ticket is read behind every position up to the one it was given. -/
theorem stands_joined {hfresh : e.id ∉ s.entries.map (·.id)} {changedBy : String} {now : Time}
    (hdates : ByDate (joinedStore s e hfresh changedBy now)) (hw : e.status = .waiting)
    (hpos : e.position = some ((s.waiting e.restaurantId).length + 1))
    (h : Stands s e.restaurantId a) :
    Stands (joinedStore s e hfresh changedBy now) e.restaurantId (enter a e.id) := by
  obtain ⟨l, hline, hplaces⟩ := h
  have hlen : l.length = a.length := by simpa using congrArg List.length hplaces
  rw [← hline.perm.length_eq, hlen] at hpos
  let low : QueueEntry → Bool := fun c => c.position.getD 0 ≤ a.length + 1
  have hdate : ∀ c ∈ l, c.joinedAt ≤ e.joinedAt := by
    intro c hc
    rw [ByDate, joinedStore, Store.log_entries, Store.insert_entries, List.map_append,
      List.pairwise_append] at hdates
    have hmem := List.mem_map_of_mem (f := (·.joinedAt)) ((isLine_mem hline).mp hc).1
    exact (hdates.2.2 _ hmem _ (List.mem_singleton_self _)).le
  have hlow : ∀ c ∈ l.takeWhile low, LineLE c e := by
    intro c hc
    have hmem := (List.takeWhile_sublist low).subset hc
    obtain ⟨p, hp⟩ := stands_position hplaces hmem
    have hle := List.mem_takeWhile_imp hc
    simp only [low, hp, Option.getD_some, decide_eq_true_eq] at hle
    simp only [LineLE, hp, hpos]
    exact (Nat.lt_or_eq_of_le hle).imp_right fun heq => ⟨heq, hdate c hmem⟩
  have hhigh : ∀ c ∈ l.dropWhile low, LineLE e c := by
    intro c hc
    obtain ⟨p, hp⟩ := stands_position hplaces ((List.dropWhile_sublist low).subset hc)
    have hgt := dropWhile_fails hline.sorted (fun b hb d hd hbd hlow => ?_) hc
    · simp only [low, hp, Option.getD_some, decide_eq_false_iff_not] at hgt
      simp only [LineLE, hp, hpos]
      omega
    · obtain ⟨p, hp⟩ := stands_position hplaces hb
      obtain ⟨q, hq⟩ := stands_position hplaces hd
      simp only [LineLE, hp, hq] at hbd
      simp only [low, hp, hq, Option.getD_some, decide_eq_true_eq] at hlow ⊢
      omega
  refine ⟨l.takeWhile low ++ e :: l.dropWhile low, ⟨?_, ?_⟩, ?_⟩
  · rw [joined_waiting hw, if_pos rfl]
    refine List.perm_middle.trans ?_
    rw [List.takeWhile_append_dropWhile]
    exact (hline.perm.cons e).trans (List.perm_append_singleton e _).symm
  · have hsorted := hline.sorted
    rw [← List.takeWhile_append_dropWhile (p := low) (l := l), List.pairwise_append] at hsorted
    obtain ⟨hfront, hback, hcross⟩ := hsorted
    rw [List.pairwise_append, List.pairwise_cons]
    refine ⟨hfront, ⟨hhigh, hback⟩, fun b hb c hc => ?_⟩
    obtain rfl | hc := List.mem_cons.mp hc
    · exact hlow b hb
    · exact hcross b hb c hc
  · let full : Uuid × Option Nat → Bool := fun p => p.2.getD 0 ≤ a.length + 1
    have htake := congrArg (List.takeWhile full) hplaces
    have hdrop := congrArg (List.dropWhile full) hplaces
    rw [List.takeWhile_map, List.takeWhile_map] at htake
    rw [List.dropWhile_map, List.dropWhile_map] at hdrop
    rw [List.map_append, List.map_cons, enter, List.map_append, List.map_cons]
    exact congrArg₂ (· ++ ·) htake (congrArg₂ List.cons (by rw [place, hpos]) hdrop)

theorem effect_vacate {input : AssignTablesInput} (hprevious : row.previousStatus.isSome)
    (hcurrent : row.currentStatus ≠ .waiting) :
    effect (.assignTable input) row = .vacate row.queueEntryId := by
  unfold effect
  split
  · rename_i hnone
    rw [hnone] at hprevious
    cases hprevious
  · exact (hcurrent ‹_›).elim
  · rfl
  · rename_i hop
    exact (hop _ rfl).elim

theorem execute_replays {calls : Calls} {y : Except QueueError Outcome} (hfails : ¬ EssentialFails E)
    (hheld : Held w.store) (hdates : ByDate w.store) (hregister : ∀ input, op ≠ .register input)
    (h : Traces E.Answers op.execute w calls y w') (hs : Stands w.store (.ofText op.restaurantId) a) :
    Replays op a w.store w'.store := by
  have hstill : w'.store = w.store → Replays op a w.store w'.store := fun hsame =>
    replays_unwritten (congrArg Store.history hsame) (hsame ▸ hs)
  cases op with
  | register input => exact (hregister input rfl).elim
  | seatParty input =>
    obtain ⟨x, h, -⟩ := traces_map h
    cases seatParty_executes h with
    | refused hsame _ => exact hstill hsame.store
    | stranded _ _ hsame => exact hstill hsame.store
    | seated hfound ha hb _ hstore hrest =>
      have hrec := closeRanks_recalculates hfails (fun _ => issues_notifySeated _ _) ⟨_, hrest⟩
      have hentries := congrArg Store.entries hstore.store
      have hhistory := congrArg Store.history hstore.store
      refine replays_left hdates hfound.mem hfound.waiting (.seated ha hb) hentries hhistory ?_ hrec hs
      exact effect_leave rfl (leaves_status (.seated ha hb)) (by simp)
  | assignTable input =>
    obtain ⟨x, h, -⟩ := traces_map h
    obtain ⟨ahead, h⟩ := assignTable_executes h
    cases h with
    | refused hsame _ => exact hstill hsame.store
    | stranded _ _ hsame => exact hstill hsame.store
    | @seated _ _ found b c _ _ _ _ _ hfound ha hb _ hstore hrest =>
      have hend := (calm_of_issues (issues_afterAssigning _ _ _ _) ⟨_, hrest⟩).store.trans hstore.store
      have hstatus : (found.seated b c).status ≠ .waiting := leaves_status (.seated ha hb)
      have hentries := congrArg Store.entries hend
      refine ⟨[_], congrArg Store.history hend, ?_⟩
      rw [List.map_singleton, effect_vacate rfl hstatus]
      exact stands_vacated (s := w.store) rfl hstatus hentries hs
  | skipParty input =>
    obtain ⟨x, h, -⟩ := traces_map h
    exact skipParty_replays hfails hdates (skipParty_executes ⟨_, h⟩) hs
  | cancelQueueEntry input =>
    obtain ⟨x, h, -⟩ := traces_map h
    cases cancelQueueEntry_executes (held_tableFree hheld) ⟨_, h⟩ with
    | refused hsame => exact hstill hsame.store
    | @cancelled found b c _ v _ hfound hb hv hrest =>
      have hrec := closeRanks_recalculates hfails (fun _ => issues_notifyCancelled _ _) hrest
      have hstatus := targetStatus_cases input.reason
      generalize targetStatus input.reason = status at hstatus hv
      have hleaves : Leaves (During E w v) found (found.cancelled status b c) := .cancelled hstatus hb
      have hentries := congrArg Store.entries hv.store
      have hhistory := congrArg Store.history hv.store
      refine replays_left hdates hfound.mem hfound.waiting hleaves hentries hhistory ?_ hrec hs
      exact effect_leave rfl (leaves_status hleaves) (by simp)
  | ringCustomer input =>
    obtain ⟨x, h, -⟩ := traces_map h
    cases ringCustomer_executes ⟨_, h⟩ with
    | refused hsame => exact hstill hsame.store
    | @rung found b c _ _ _ hfound hv hrest =>
      have hend := (calm_of_issues (issues_notifyRung _ _) hrest).store.trans hv.store
      have hentries := congrArg Store.entries hend
      have hhistory := congrArg Store.history hend
      have hrung : Touches found (found.rung b c) := rfl
      exact replays_unwritten hhistory (stands_touched hfound.mem hrung hentries hs)

theorem stands_of_waiting (hwaiting : s'.waiting r = s.waiting r) (h : Stands s r a) :
    Stands s' r a := by
  obtain ⟨l, hline, hplaces⟩ := h
  exact ⟨l, ⟨hwaiting ▸ hline.perm, hline.sorted⟩, hplaces⟩

theorem replay_own {l : Executed} {u v : World} (hr : r = .ofText l.operation.restaurantId)
    (h : Replays l.operation (replay r tr) u.store v.store) :
    Stands v.store r (replay r (tr ++ [⟨u, l, v⟩])) := by
  obtain ⟨rows, hrows, hs⟩ := h
  have hrecorded : recorded ⟨u, l, v⟩ = rows := by
    rw [recorded, hrows, List.drop_left]
  rw [replay, effects, List.flatMap_append, List.foldl_append, List.flatMap_singleton, if_pos hr.symm,
    hrecorded, hr]
  exact hr ▸ hs

theorem replay_other {l : Executed} {u v : World} (hr : r ≠ .ofText l.operation.restaurantId)
    (hwaiting : v.store.waiting r = u.store.waiting r) (h : Stands u.store r (replay r tr)) :
    Stands v.store r (replay r (tr ++ [⟨u, l, v⟩])) := by
  rw [replay, effects, List.flatMap_append, List.foldl_append, List.flatMap_singleton,
    if_neg fun heq => hr heq.symm]
  exact stands_of_waiting hwaiting h

theorem run_stands (hfails : ¬ EssentialFails E) (htick : ∀ a b, E.tick a b → a ≤ b)
    (hpause : ∀ a b, E.pause a b → a < b) (hrun : Run (Sequential E) (World.empty start) tr w) :
    ∀ r, Stands w.store r (replay r tr) := by
  refine run_invariant (I := fun tr w => ∀ r, Stands w.store r (replay r tr)) (G := fun _ => True)
    (fun r => ⟨[], ⟨.refl _, .nil⟩, rfl⟩) ?_ hrun fun _ _ => trivial
  rintro tr u l v hrun hs hstep - r
  have hheld : Held u.store := run_held hrun
  have hdates : ByDate u.store := run_joinedAt htick hpause hrun
  cases run_outcome hrun hstep with
  | changed hop _ _ hchanges =>
    by_cases hr : r = .ofText l.operation.restaurantId
    · cases hstep with
      | @executes _ x _ _ t _ htraces =>
        refine replay_own hr ?_
        rw [respond_store]
        exact execute_replays (w := u.at t) hfails hheld hdates hop htraces (hr ▸ hs r)
    · exact replay_other hr (changes_waiting hchanges hr) (hs r)
  | @joined input x t y hop _ _ hout _ hend =>
    have hdates' : ByDate v.store := run_joinedAt htick hpause (.snoc hrun hstep)
    have hstore : v.store = y.store := by rw [hend, respond_store]
    have hrestaurant : l.operation.restaurantId = input.restaurantId := by rw [hop]; rfl
    obtain ⟨hsame, -⟩ | ⟨e, hfresh, changedBy, now, hy, her, hw, hpos, -⟩ := registered_last hout
    · have hkept : v.store = u.store := hstore.trans hsame
      by_cases hr : r = .ofText l.operation.restaurantId
      · exact replay_own hr (replays_unwritten (congrArg Store.history hkept) (hkept ▸ hr ▸ hs r))
      · exact replay_other hr (by rw [hkept]) (hs r)
    · rw [hy] at hstore
      by_cases hr : r = .ofText l.operation.restaurantId
      · have hown : r = e.restaurantId := by rw [hr, her, hrestaurant]
        refine replay_own hr ⟨[_], congrArg Store.history hstore, ?_⟩
        rw [← hr, hstore, hown]
        exact stands_joined (hstore ▸ hdates') hw (her.symm ▸ hpos) (hown ▸ hs r)
      · refine replay_other hr ?_ (hs r)
        rw [hstore]
        refine (joined_waiting hw).trans ?_
        rw [if_neg, List.append_nil]
        · rfl
        · rw [her, ← hrestaurant]
          exact fun heq => hr heq.symm

/-- Read back at any time, a restaurant's line is what its status history tells of the
operations that wrote it. -/
theorem line_replays (hfails : ∀ c, E.fails c → SideChannel c) (htick : ∀ a b, E.tick a b → a ≤ b)
    (hpause : ∀ a b, E.pause a b → a < b) (hrun : Run (Sequential E) (World.empty start) tr w)
    (hline : IsLine w.store r l) :
    l.map (fun e => (e.id, e.position)) = (replay r tr).map fun p => (p.1, some p.2) :=
  stands_line (run_joinedAt htick hpause hrun)
    (run_stands (not_essentialFails hfails) htick hpause hrun r) hline

/-- A table is assigned past the line, and the next party to join finds its number taken. -/
def pastTheLine : List Operation :=
  [walkIn "r" "1", walkIn "r" "2", walkIn "r" "3", assignTo "r" "7" "t", walkIn "r" "4"]

theorem line_replays_pastTheLine :
    ((smooth.final (.empty 0) pastTheLine).store.findActiveEntries "r").map
        (fun e => (e.id, e.position)) =
      (replay (.ofText "r") (smooth.history (.empty 0) pastTheLine)).map fun p => (p.1, some p.2) :=
  line_replays (fun _ hc => (Bool.false_ne_true hc).elim) (env_tick smooth) (env_pause smooth)
    (smooth.history_run _ _) (findActiveEntries_isLine _ _)

theorem effects_vacate {t : Uuid} (h : .vacate t ∈ effects r tr) :
    ∃ step ∈ tr, ∃ input, step.label.operation = .assignTable input := by
  obtain ⟨step, hstep, h⟩ := List.mem_flatMap.mp h
  refine ⟨step, hstep, ?_⟩
  split at h
  · obtain ⟨row, -, hrow⟩ := List.mem_map.mp h
    generalize step.label.operation = op at hrow
    unfold effect at hrow
    split at hrow <;> cases hrow
    exact ⟨_, rfl⟩
  · cases h

def skipAndSeat : List Operation :=
  [walkIn "r" "1", walkIn "r" "2", walkIn "r" "3", skipBy "r" "7" (some 1), seatAt "r" "19" "t"]

/-- Where tables are not assigned past the line, it is a plain list: a party joins
at the end, leaves from where it stands, goes down as far as a skip says. -/
theorem line_list (hfails : ∀ c, E.fails c → SideChannel c) (htick : ∀ a b, E.tick a b → a ≤ b)
    (hpause : ∀ a b, E.pause a b → a < b) (hrun : Run (Sequential E) (World.empty start) tr w)
    (hassign : ∀ step ∈ tr, ∀ input, step.label.operation ≠ .assignTable input)
    (hline : IsLine w.store r l) :
    l.map (·.id) = (effects r tr).foldl step [] ∧ Numbered l := by
  have hstands := run_stands (not_essentialFails hfails) htick hpause hrun r
  have hplain : replay r tr = renumber ((effects r tr).foldl step []) := by
    refine foldl_act_renumber (fun a ha t hvacate => ?_) []
    obtain ⟨step, hstep, input, hop⟩ := effects_vacate (hvacate ▸ ha)
    exact hassign step hstep input hop
  have hdates : ByDate w.store := run_joinedAt htick hpause hrun
  rw [hplain] at hstands
  refine ⟨(stands_tickets hdates hstands hline).trans (tickets_renumber _), fun j e hj => ?_⟩
  have hplace := congrArg (·[j]?) (stands_line hdates hstands hline)
  simp only [List.getElem?_map, hj, renumber, List.getElem?_mapIdx, Option.map_some, Option.map_map]
    at hplace
  obtain ⟨t, -, ht⟩ := Option.map_eq_some_iff.mp hplace.symm
  exact (congrArg Prod.snd ht).symm

theorem line_list_skipAndSeat :
    ((smooth.final (.empty 0) skipAndSeat).store.findActiveEntries "r").map (·.id) =
        (effects (.ofText "r") (smooth.history (.empty 0) skipAndSeat)).foldl step [] ∧
      Numbered ((smooth.final (.empty 0) skipAndSeat).store.findActiveEntries "r") :=
  line_list (fun _ hc => (Bool.false_ne_true hc).elim) (env_tick smooth) (env_pause smooth)
    (smooth.history_run _ _)
    (fun step hstep input hop => by
      have hmem := Script.operation_mem hstep
      simp [hop, skipAndSeat, walkIn, skipBy, seatAt] at hmem)
    (findActiveEntries_isLine _ _)

end SpotQueue.LineReplay
