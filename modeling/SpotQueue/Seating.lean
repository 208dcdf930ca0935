import SpotQueue.Recalculation

namespace SpotQueue.Seating

open SpotQueue.Entity SpotQueue.Repository SpotQueue.Environment SpotQueue.Recalculator
open SpotQueue.UseCases SpotQueue.Frame SpotQueue.Guards SpotQueue.Line SpotQueue.Recalculation
open SpotQueue.Awaits.AsyncProgram SpotQueue.Awaits.AsyncProtocol

abbrev Calls := List (Event Call Answer QueueError World)

/-- The line that the first findActiveEntries of an execution was answered. -/
def lineAnswered (calls : Calls) : Option (List QueueEntry) :=
  calls.findSome? fun ev => match ev with
    | ⟨_, .findActiveEntries _, .ok l, _⟩ => some l
    | _ => none

variable {E : Env} {w w' : World} {calls : Calls} {α : Type}

/-- What the restaurant service does when `assignTables` resolves. -/
def occupy (w : World) (tables : List AssignTableItem) : World :=
  { w with occupancy := fun t => w.occupancy t + assignedCount tables t }

/-- A row found for a staff use case, still waiting. -/
structure Found (w : World) (r q : String) (e : QueueEntry) : Prop where
  find : w.store.findById q = some e
  owned : e.restaurantId.text = r
  waiting : e.status = .waiting

theorem Found.mem {r q : String} {e : QueueEntry} (h : Found w r q e) : e ∈ w.store.entries :=
  (find_eq_some.mp h.find).1

theorem Found.id {r q : String} {e : QueueEntry} (h : Found w r q e) : e.id = .ofText q :=
  (find_eq_some.mp h.find).2

theorem Found.restaurant {r q : String} {e : QueueEntry} (h : Found w r q e) :
    e.restaurantId = .ofText r := by
  rw [← h.owned, Uuid.ofText_text]

/-- The store after assignTablesWithHistory of a seated row. -/
def seatedStore (s : Store) (e : QueueEntry) (tableIds : List String) (assignedBy : String)
    (previousStatus : QueueStatus) (now : Time) : Store :=
  ((s.assign (newAssignments e tableIds assignedBy now)).put e).log
    ⟨e.id, some previousStatus, e.status, some assignedBy, none, none, now⟩

def SeatingTransaction : Call → Prop
  | .assignTablesWithHistory _ _ _ _ => True
  | _ => False

/-- Seating and assigning share everything between finding the row and the
stored seat; `counts` is what the restaurant service is sent and `rest` what follows. -/
inductive SeatingOutcome (E : Env) (r q : String) (counts : QueueEntry → List AssignTableItem)
    (tableIds : List String) (assignedBy : String) (rest : QueueEntry → UseCase α) (w : World) :
    Calls → Except QueueError α → World → Prop
  | refused {calls : Calls} {e : QueueError} {w' : World} (hstill : Still E w w')
      (hcalls : ∀ ev ∈ calls, ¬ SeatingTransaction ev.call) :
      SeatingOutcome E r q counts tableIds assignedBy rest w calls (.error e) w'
  | stranded {pre : Calls} {found e : QueueEntry} {err : QueueError} {u v w' : World}
      (hfound : Found w r q found) (hpre : ∀ ev ∈ pre, Reads ev.call)
      (hstill : Still E (occupy w (counts found)) w') :
      SeatingOutcome E r q counts tableIds assignedBy rest w
        (pre ++ [⟨u, .assignTables r (counts found), .ok (), v⟩,
          ⟨v, .assignTablesWithHistory e tableIds assignedBy found.status, .error err, w'⟩])
        (.error err) w'
  | seated {pre post : Calls} {found : QueueEntry} {a b : Time} {x : Except QueueError α}
      {u v z w' : World} (hfound : Found w r q found) (ha : During E w z a)
      (hb : During E w z b) (hpre : ∀ ev ∈ pre, Reads ev.call)
      (hstore : Committed E (occupy w (counts found)) (seatedStore w.store (found.seated a b) tableIds
        assignedBy found.status z.clock) z)
      (hrest : Traces E.Answers (rest (found.seated a b)) z post x w') :
      SeatingOutcome E r q counts tableIds assignedBy rest w
        (pre ++ ⟨u, .assignTables r (counts found), .ok (), v⟩ ::
          ⟨v, .assignTablesWithHistory (found.seated a b) tableIds assignedBy found.status,
            .ok (found.seated a b), z⟩ :: post) x w'

def seating (r : String) (found : QueueEntry) (counts : QueueEntry → List AssignTableItem)
    (tableIds : List String) (assignedBy : String) (rest : QueueEntry → UseCase α) : UseCase α := do
  let queueEntry ← seat found
  ask (.assignTables r (counts queueEntry))
  let persisted ← ask (.assignTablesWithHistory queueEntry tableIds assignedBy found.status)
  rest persisted

theorem reads_not_seating {c : Call} (h : Reads c) : ¬ SeatingTransaction c := by
  cases c <;> first | exact h.elim | exact id

theorem assignTables_answers {r : String} {tables : List AssignTableItem} {u : World}
    (h : E.Answers (.assignTables r tables) w (.ok ()) u) : Still E (occupy w tables) u := by
  obtain ⟨t, ht, -, rfl⟩ := answers_ok h
  exact ⟨rfl, rfl, rfl, rfl, .single ht⟩

theorem still_occupy {tables : List AssignTableItem} {u v : World} (hu : Still E w u)
    (hv : Still E (occupy u tables) v) : Still E (occupy w tables) v :=
  ⟨hv.store.trans hu.store, hv.occupancy.trans (by simp [occupy, hu.occupancy]),
    hv.cache.trans hu.cache, hv.deliveries.trans hu.deliveries, hu.later.trans hv.later⟩

theorem assignTablesWithHistory_answers {e d : QueueEntry} {tableIds : List String}
    {assignedBy : String} {previousStatus : QueueStatus} {u : World}
    (h : E.Answers (.assignTablesWithHistory e tableIds assignedBy previousStatus) w (.ok d) u) :
    d = e ∧ Committed E w (seatedStore w.store e tableIds assignedBy previousStatus u.clock) u := by
  obtain ⟨t, ht, hp⟩ := answers_ok h
  obtain ⟨rfl, s, hs, rfl⟩ := transacts_ok hp
  obtain ⟨-, rfl⟩ := Store.assignTablesWithHistory_ok.mp hs
  exact ⟨rfl, (still_at ht).committed _⟩

variable {r q assignedBy : String} {counts : QueueEntry → List AssignTableItem}
  {tableIds : List String} {rest : QueueEntry → UseCase α} {found : QueueEntry}

theorem seating_executes {u : World} {pre : Calls} {x : Except QueueError α}
    (hcounts : ∀ a b, counts (found.seated a b) = counts found)
    (hfind : w.store.findById q = some found) (howned : found.restaurantId.text = r)
    (hwu : Still E w u) (hpre : ∀ ev ∈ pre, Reads ev.call)
    (h : Traces E.Answers (seating r found counts tableIds assignedBy rest) u calls x w') :
    SeatingOutcome E r q counts tableIds assignedBy rest w (pre ++ calls) x w' := by
  obtain ⟨e, v, pre', post, rfl, hseat, huv, hreads, h⟩ | ⟨⟨err, rfl⟩, hstill, hreads⟩ :=
    traces_reads_bind (issues_seat found) h
  swap
  · exact .refused (still_trans hwu hstill) fun ev hev =>
      reads_not_seating (List.forall_mem_append.mpr ⟨hpre, hreads⟩ ev hev)
  have hcalls := List.forall_mem_append.mpr ⟨hpre, hreads⟩
  obtain ⟨-, hwaiting, a, b, ha, hb, rfl⟩ := seat_executes hseat
  have hfound : Found w r q found := ⟨hfind, howned, hwaiting⟩
  have hwv := still_trans hwu huv
  rw [hcounts] at h
  rw [← List.append_assoc]
  obtain ⟨_, z, post, rfl, hassign, h⟩ | ⟨err, rfl, rfl, hassign⟩ := traces_call_bind h
  swap
  · exact .refused (still_trans hwv (rejected_still hassign))
      (List.forall_mem_append.mpr
        ⟨fun ev hev => reads_not_seating (hcalls ev hev), by simp [SeatingTransaction]⟩)
  have hz := still_occupy hwv (assignTables_answers hassign)
  obtain ⟨_, y, post, rfl, hcommit, h⟩ | ⟨err, rfl, rfl, hcommit⟩ := traces_call_bind h
  · obtain ⟨rfl, hy⟩ := assignTablesWithHistory_answers hcommit
    have hlater := (answers_later hassign).trans (answers_later hcommit)
    rw [hz.store] at hy
    exact .seated hfound (during_widen hwu.later ha hlater) (during_widen hwu.later hb hlater) hcalls
      (committed_of_still hz hy) h
  · exact .stranded hfound hcalls (still_trans hz (rejected_still hcommit))

theorem seatParty_executes {input : SeatPartyInput} {x : Except QueueError SeatPartyOutput}
    (h : Traces E.Answers (seatParty input) w calls x w') :
    SeatingOutcome E input.restaurantId input.queueEntryId
      (fun e => assignmentPayload e.partySize input.tableIds) input.tableIds input.staffUserId
      (fun persisted => do
        let _ ← closeRanks input.queueEntryId input.restaurantId
        notifySeated input persisted) w calls x w' := by
  obtain ⟨found, u, pre, post, rfl, hfind, hwu, hreads, h⟩ | ⟨⟨err, rfl⟩, hstill, hreads⟩ :=
    traces_reads_bind (issues_findOwned _ _) h
  swap
  · exact .refused hstill fun ev hev => reads_not_seating (hreads ev hev)
  obtain ⟨-, hfind, howned⟩ := findOwned_executes hfind
  exact seating_executes (fun _ _ => rfl) hfind howned hwu hreads h

theorem issues_peopleAheadAtJoin (r : String) (joinedAt : Time) :
    Issues Reads (peopleAheadAtJoin r joinedAt) :=
  issues_attempt (issues_bind (issues_call trivial) fun _ => issues_pure _) fun _ => issues_pure _

theorem assignTable_executes {input : AssignTablesInput} {x : Except QueueError AssignTablesOutput}
    (h : Traces E.Answers (assignTable input) w calls x w') :
    ∃ ahead, SeatingOutcome E input.restaurantId input.queueEntryId (fun _ => input.tables)
      (input.tables.map (·.tableId)) input.staffUserId
      (fun persisted => afterAssigning input ahead (input.tables.map (·.tableId)) persisted)
      w calls x w' := by
  obtain ⟨found, u, pre, post, rfl, hfind, hwu, hreads, h⟩ | ⟨⟨err, rfl⟩, hstill, hreads⟩ :=
    traces_reads_bind (issues_findOwned _ _) h
  swap
  · exact ⟨none, .refused hstill fun ev hev => reads_not_seating (hreads ev hev)⟩
  obtain ⟨-, hfind, howned⟩ := findOwned_executes hfind
  change Traces _ (if _ then _ else _) _ _ _ _ at h
  split at h
  · cases h
    exact ⟨none, .refused hwu (by simpa using fun ev hev => reads_not_seating (hreads ev hev))⟩
  obtain ⟨ahead, v, pre', post, rfl, -, huv, hreads', h⟩ | ⟨⟨err, rfl⟩, hstill, hreads'⟩ :=
    traces_reads_bind (issues_peopleAheadAtJoin _ _) h
  · refine ⟨ahead, ?_⟩
    rw [← List.append_assoc]
    exact seating_executes (fun _ _ => rfl) hfind howned (still_trans hwu huv)
      (List.forall_mem_append.mpr ⟨hreads, hreads'⟩) h
  · exact ⟨none, .refused (still_trans hwu hstill) fun ev hev =>
      reads_not_seating (List.forall_mem_append.mpr ⟨hreads, hreads'⟩ ev hev)⟩

end SpotQueue.Seating
