import SpotQueue.NoOvertaking
import SpotQueue.PeopleAhead
import SpotQueue.SettledRun
import SpotQueue.StaffQueue

namespace SpotQueue.StaffLine

open SpotQueue.Entity SpotQueue.Repository SpotQueue.Environment SpotQueue.UseCases
open SpotQueue.Frame SpotQueue.Line SpotQueue.Registration SpotQueue.StoreChanges
open SpotQueue.RowChanges SpotQueue.LineOrder SpotQueue.NoOvertaking SpotQueue.PeopleAhead
open SpotQueue.SettledLine SpotQueue.SettledRun SpotQueue.SequentialRun SpotQueue.Simulation
open SpotQueue.StaffQueue SpotQueue.Awaits.AsyncProgram SpotQueue.Awaits.LabelledRun

variable {E : Env} {s : Store} {r : Uuid} {bucket : Option PartySizeBucket} {d e : QueueEntry}
  {l m : List QueueEntry} {w w' : World} {tr : History} {start : Time}

/-- A selection listed in order `R` begins another list `m` exactly when nothing
left out stands in `m` before something selected and `m` agrees with `R` on the rest. -/
theorem prefix_iff {α : Type} {P : α → Prop} [DecidablePred P] {R : α → α → Prop} {l m : List α}
    (hperm : l.Perm (m.filter P)) (hsorted : l.Pairwise R) (hkey : m.Nodup)
    (hanti : ∀ a ∈ m, ∀ b ∈ m, R a b → R b a → a = b) :
    l <+: m ↔ m.Pairwise fun a b => P b → P a ∧ R a b := by
  have hmem : ∀ {a}, a ∈ l ↔ a ∈ m ∧ P a := fun {a} => by rw [hperm.mem_iff]; simp
  constructor
  · rintro ⟨rest, rfl⟩
    have hlast : ∀ b ∈ rest, ¬ P b := fun b hb hP =>
      (List.nodup_append.mp hkey).2.2 b (hmem.mpr ⟨List.mem_append_right _ hb, hP⟩) b hb rfl
    rw [List.pairwise_append]
    refine ⟨?_, ?_, fun a _ b hb hP => (hlast b hb hP).elim⟩
    · exact hsorted.imp_of_mem fun ha _ hab _ => ⟨(hmem.mp ha).2, hab⟩
    · exact List.pairwise_of_forall_mem_list fun a _ b hb hP => (hlast b hb hP).elim
  · intro h
    have hfirst : m.filter P <+: m := by
      clear hperm hmem hkey hanti
      induction m with
      | nil => exact List.prefix_rfl
      | cons a m ih =>
        obtain ⟨ha, hm⟩ := List.pairwise_cons.mp h
        by_cases hP : P a
        · rw [List.filter_cons_of_pos (by simpa using hP)]
          exact List.prefix_cons_inj a |>.mpr (ih hm)
        · have hnone : m.filter P = [] := by
            rw [List.filter_eq_nil_iff]
            intro b hb hPb
            exact hP (ha b hb (by simpa using hPb)).1
          rw [List.filter_cons_of_neg (by simpa using hP), hnone]
          exact List.nil_prefix
    have hselected : (m.filter P).Pairwise R := by
      refine (h.sublist List.filter_sublist).imp_of_mem fun _ hb hab => (hab ?_).2
      simpa using (List.mem_filter.mp hb).2
    have heq : l = m.filter P := by
      refine hperm.eq_of_pairwise (fun a b ha hb hab hba => ?_) hsorted hselected
      exact hanti a (hmem.mp ha).1 b (List.mem_filter.mp hb).1 hab hba
    exact heq ▸ hfirst

/-- The party sizes a bucket lets through. -/
def InBucket (bucket : Option PartySizeBucket) (e : QueueEntry) : Prop :=
  let range := (bucket.map PARTY_SIZE_RANGE_MAP).getD ⟨none, none⟩
  (∀ n ∈ range.minPartySize, n ≤ e.partySize) ∧ ∀ n ∈ range.maxPartySize, e.partySize ≤ n

instance : DecidablePred (InBucket bucket) := fun e => by unfold InBucket; infer_instance

def storedPosition (s : Store) (id : Uuid) : Option Nat := (s.find id).bind (·.position)

/-- The listing goes up in stored positions, and reports them. -/
structure SameLine (s : Store) (entries : List StaffLiveQueueEntry) : Prop where
  ordered : entries.Pairwise fun a b => ∃ p q, storedPosition s a.queueEntryId = some p ∧
    storedPosition s b.queueEntryId = some q ∧ p < q
  reported : ∀ live ∈ entries, live.position = storedPosition s live.queueEntryId

/-- Nobody stands before a listed party without being listed above it. -/
def NoneHidden (s : Store) (r : Uuid) (bucket : Option PartySizeBucket) : Prop :=
  ∀ d ∈ s.waiting r, ∀ e ∈ s.waiting r, Ahead d e → InBucket bucket e →
    InBucket bucket d ∧ SnapshotLE d e

/-- What is listed: the matching parties by date and id, numbered from one. -/
def Listing (s : Store) (r : Uuid) (bucket : Option PartySizeBucket)
    (entries : List StaffLiveQueueEntry) (l : List QueueEntry) : Prop :=
  l.Perm ((s.waiting r).filter (InBucket bucket)) ∧ l.Pairwise SnapshotLE ∧
    entries.map (fun live => (live.queueEntryId, live.position)) =
      l.mapIdx fun i e => (e.id, some (i + 1))

theorem getStaffQueue_listing {input : GetStaffQueueInput} {output : GetStaffQueueOutput}
    (hstatus : input.status.getD .waiting = .waiting)
    (h : Executes (StaffAnswers E) (getStaffQueue input) w (.ok output) w') :
    ∃ l, Listing w.store (.ofText input.restaurantId) input.partySizeBucket output.entries l := by
  obtain ⟨t, -, -, -, snapshot, hsnapshot, rfl⟩ := getStaffQueue_executes.mp h
  have hrows : w.store.entries.filter (Selected (.ofText input.restaurantId) input.filters) =
      (w.store.waiting (.ofText input.restaurantId)).filter (InBucket input.partySizeBucket) := by
    rw [Store.waiting, List.filter_filter]
    apply List.filter_congr
    intro e he
    simp [Selected, GetStaffQueueInput.filters, InBucket, hstatus]
    grind
  have hwaiting : ∀ item ∈ snapshot.entries, item.entry.status = .waiting := by
    intro item hitem
    have hmem := hsnapshot.rows.mem_iff.mp (List.mem_map_of_mem hitem)
    rw [hrows] at hmem
    exact (waiting_mem.mp (List.mem_filter.mp hmem).1).2.2
  refine ⟨_, hrows ▸ hsnapshot.rows, hsnapshot.sorted, ?_⟩
  rw [mapToLiveQueueEntries, liveQueueEntries_waiting hwaiting]
  apply List.ext_getElem?
  intro i
  simp [List.getElem?_mapIdx, Function.comp_def, toLiveQueueEntry, INITIAL_WAITING_POSITION,
    Nat.add_comm]

theorem snapshotLE_antisymm (ha : d ∈ s.waiting r) (hb : e ∈ s.waiting r) (hab : SnapshotLE d e)
    (hba : SnapshotLE e d) : d = e := by
  have hid : d.id.text = e.id.text := by
    obtain hlt | ⟨hj, hle⟩ := hab
    · obtain hlt' | ⟨hj', -⟩ := hba
      · exact (hlt.not_gt hlt').elim
      · exact (hlt.ne' hj').elim
    · obtain hlt' | ⟨-, hle'⟩ := hba
      · exact (hlt'.ne' hj).elim
      · exact String.le_antisymm hle hle'
  exact eq_of_id_eq s.key (waiting_mem.mp ha).1 (waiting_mem.mp hb).1 (Uuid.text_injective hid)

theorem storedPosition_of_mem (he : e ∈ s.entries) : storedPosition s e.id = e.position := by
  rw [storedPosition, find_eq_some.mpr ⟨he, rfl⟩]
  rfl

theorem listing_getElem? {entries : List StaffLiveQueueEntry} {i : Nat} {live : StaffLiveQueueEntry}
    (h : Listing s r bucket entries l) (hlive : entries[i]? = some live) :
    ∃ e ∈ s.entries, l[i]? = some e ∧ live.queueEntryId = e.id ∧ live.position = some (i + 1) := by
  obtain ⟨hperm, -, hmap⟩ := h
  have hi := congrArg (·[i]?) hmap
  simp only [List.getElem?_map, List.getElem?_mapIdx, hlive, Option.map_some] at hi
  obtain ⟨e, he, heq⟩ := Option.map_eq_some_iff.mp hi.symm
  have hmem := hperm.mem_iff.mp (List.mem_of_getElem? he)
  cases Prod.mk.inj heq with
  | intro hid hpos =>
    exact ⟨e, (waiting_mem.mp (List.mem_filter.mp hmem).1).1, he, hid.symm, hpos.symm⟩

theorem sameLine_iff_start {entries : List StaffLiveQueueEntry}
    (h : Listing s r bucket entries l) (hperm : m.Perm (s.waiting r)) (hm : SettledList E r m) :
    SameLine s entries ↔ l <+: m := by
  have hlength : entries.length = l.length := by simpa using congrArg List.length h.2.2
  rw [List.prefix_iff_getElem?]
  constructor
  · intro hsame i hi
    have hi' : i < entries.length := hlength ▸ hi
    have hlive := List.getElem?_eq_getElem hi'
    obtain ⟨e, he, hle, hid, hpos⟩ := listing_getElem? h hlive
    have hreported := hsame.reported _ (List.mem_of_getElem? hlive)
    rw [hpos, hid, storedPosition_of_mem he] at hreported
    have hwaiting := List.mem_filter.mp (h.1.mem_iff.mp (List.mem_of_getElem? hle))
    obtain ⟨j, hj⟩ := List.mem_iff_getElem?.mp (hperm.mem_iff.mpr hwaiting.1)
    have hplace := (hm j e hj).1
    rw [← hreported] at hplace
    obtain rfl : i = j := by simpa using hplace
    rw [hj, ← hle, List.getElem?_eq_getElem hi]
  · intro hstart
    have hstored : ∀ i live, entries[i]? = some live →
        storedPosition s live.queueEntryId = some (i + 1) ∧ live.position = some (i + 1) := by
      intro i live hlive
      obtain ⟨e, he, hle, hid, hpos⟩ := listing_getElem? h hlive
      obtain ⟨hi, rfl⟩ := List.getElem?_eq_some_iff.mp hle
      rw [hid, storedPosition_of_mem he]
      exact ⟨(hm i _ (hstart i hi)).1, hpos⟩
    constructor
    · rw [List.pairwise_iff_getElem]
      intro i j hi hj hij
      exact ⟨_, _, (hstored i _ (List.getElem?_eq_getElem hi)).1,
        (hstored j _ (List.getElem?_eq_getElem hj)).1, by omega⟩
    · intro live hlive
      obtain ⟨i, hi⟩ := List.mem_iff_getElem?.mp hlive
      obtain ⟨hstored, hpos⟩ := hstored i live hi
      rw [hpos, hstored]

theorem prefix_iff_noneHidden {entries : List StaffLiveQueueEntry}
    (h : Listing s r bucket entries l) (hperm : m.Perm (s.waiting r)) (hm : SettledList E r m) :
    l <+: m ↔ NoneHidden s r bucket := by
  have hselected : l.Perm (m.filter (InBucket bucket)) := h.1.trans (hperm.filter _).symm
  have hkey : m.Nodup := ((hperm.map _).nodup_iff.mpr (waiting_nodup s r)).of_map
  have hmem : ∀ {e}, e ∈ m ↔ e ∈ s.waiting r := hperm.mem_iff
  rw [prefix_iff hselected h.2.1 hkey fun a ha b hb =>
    snapshotLE_antisymm (hmem.mp ha) (hmem.mp hb)]
  constructor
  · intro hpairwise d hd e he hahead
    obtain ⟨i, hi⟩ := List.mem_iff_getElem?.mp (hmem.mpr hd)
    obtain ⟨j, hj⟩ := List.mem_iff_getElem?.mp (hmem.mpr he)
    obtain ⟨p, q, hp, hq, hpq⟩ := hahead
    rw [(hm i d hi).1] at hp
    rw [(hm j e hj).1] at hq
    cases hp
    cases hq
    obtain ⟨hil, rfl⟩ := List.getElem?_eq_some_iff.mp hi
    obtain ⟨hjl, rfl⟩ := List.getElem?_eq_some_iff.mp hj
    exact List.pairwise_iff_getElem.mp hpairwise i j hil hjl (by omega)
  · intro hnone
    rw [List.pairwise_iff_getElem]
    intro i j hi hj hij
    have hplace : ∀ k (hk : k < m.length), m[k].position = some (k + 1) := fun k hk =>
      (hm k _ (List.getElem?_eq_getElem hk)).1
    exact hnone _ (hmem.mp (List.getElem_mem hi)) _ (hmem.mp (List.getElem_mem hj))
      ⟨_, _, hplace i hi, hplace j hj, by omega⟩

theorem rowChange_joinedAt {D : Time → Prop} (h : RowChange D e d) : d.joinedAt = e.joinedAt := by
  cases h with
  | kept => rfl
  | moved _ hd => rw [hd]
  | left _ hd => cases hd <;> rfl

/-- With a clock that goes on between operations rows are kept by date. -/
theorem run_joinedAt (htick : ∀ a b, E.tick a b → a ≤ b) (hpause : ∀ a b, E.pause a b → a < b)
    (hrun : Run (Sequential E) (World.empty start) tr w) :
    (w.store.entries.map (·.joinedAt)).Pairwise (· < ·) := by
  refine run_invariant (I := fun _ w => (w.store.entries.map (·.joinedAt)).Pairwise (· < ·))
    (G := fun _ => True) List.Pairwise.nil ?_ hrun fun _ _ => trivial
  rintro tr w l w' hrun h hstep -
  cases run_outcome hrun hstep with
  | changed _ _ _ hchanges => exact changes_column rowChange_joinedAt hchanges ▸ h
  | @joined input x t u _ ht _ hout _ hend =>
    rw [hend, respond_store]
    obtain hsame | ⟨e, hjoined, hnow, -⟩ := registered_joined hout
    · exact hsame ▸ h
    · have hdated := (run_reconstructs htick hpause hrun).dated
      have hlate : w.clock < e.joinedAt := (hpause _ _ ht).trans_le (later_le htick hnow.1)
      have hentries : u.store.entries = w.store.entries ++ [e] := hjoined.entries
      rw [hentries, List.map_append, List.pairwise_append]
      refine ⟨h, List.pairwise_singleton _ _, fun a ha d hd => ?_⟩
      obtain ⟨c, hc, rfl⟩ := List.mem_map.mp ha
      obtain rfl : d = e.joinedAt := by simpa using hd
      exact (hdated c hc).joined.trans_lt hlate

theorem run_alwaysRoom (hfails : ¬ EssentialFails E)
    (hrun : Run (Sequential E) (World.empty start) tr w)
    (hassign : ∀ step ∈ tr, ∀ input, step.label.operation ≠ .assignTable input) : AlwaysRoom tr := by
  rintro pre step post rfl - input - e he - p hp
  obtain ⟨hpre, -, -⟩ := run_split hrun
  obtain ⟨l, hperm, hl⟩ := run_settled hfails hpre
    (fun step hstep => hassign step (List.mem_append_left _ hstep)) (.ofText input.restaurantId)
  obtain ⟨j, hj⟩ := List.mem_iff_getElem?.mp (hperm.mem_iff.mpr he)
  have hlt := (List.getElem?_eq_some_iff.mp hj).1
  rw [hperm.length_eq] at hlt
  rw [(hl j e hj).1] at hp
  obtain rfl : j + 1 = p := by simpa using hp
  exact hlt

/-- While no ticket has been moved down its line, dates and positions agree. -/
theorem run_noneHidden (hfails : ¬ EssentialFails E) (htick : ∀ a b, E.tick a b → a ≤ b)
    (hpause : ∀ a b, E.pause a b → a < b) (hrun : Run (Sequential E) (World.empty start) tr w)
    (hassign : ∀ step ∈ tr, ∀ input, step.label.operation ≠ .assignTable input)
    (hshifts : ∀ id, ¬ Moved tr id) (hbucket : ∀ e, InBucket bucket e) :
    NoneHidden w.store r bucket := by
  intro d hd e he hahead _
  refine ⟨hbucket d, .inl ?_⟩
  obtain ⟨hdmem, hdr, hdw⟩ := waiting_mem.mp hd
  obtain ⟨hemem, her, hew⟩ := waiting_mem.mp he
  have horder := (run_inOrder hrun (run_alwaysRoom hfails hrun hassign)).1
  obtain ⟨i, hi⟩ := List.mem_iff_getElem?.mp hdmem
  obtain ⟨j, hj⟩ := List.mem_iff_getElem?.mp hemem
  obtain ⟨p, q, hp, hq, hpq⟩ := hahead
  have hij : i < j := by
    by_contra hji
    obtain rfl | hlt : j = i ∨ j < i := by omega
    · rw [hi] at hj
      cases hj
      rw [hp] at hq
      cases hq
      exact Nat.lt_irrefl _ hpq
    · obtain ⟨q', p', hq', hp', hlt'⟩ :=
        inOrder_getElem? horder hj hi hlt (her.trans hdr.symm) hew hdw (hshifts _)
      rw [hp] at hp'
      rw [hq] at hq'
      cases hp'
      cases hq'
      exact hpq.asymm hlt'
  have hdates := List.pairwise_map.mp (run_joinedAt htick hpause hrun)
  obtain ⟨hil, rfl⟩ := List.getElem?_eq_some_iff.mp hi
  obtain ⟨hjl, rfl⟩ := List.getElem?_eq_some_iff.mp hj
  exact List.pairwise_iff_getElem.mp hdates i j hil hjl hij

def latestActiveTable (s : Store) (queueEntryId : Uuid) : Option Uuid :=
  (latest (·.assignedAt) (s.activeAssignments queueEntryId)).map (·.tableId)

/-- A snapshot with ties resolved. -/
def getStaffQueueSnapshot (s : Store) (restaurantId : Uuid) (filters : StaffQueueQueryFilters) :
    StaffQueueSnapshotResult where
  totalWaiting := (s.waiting restaurantId).length
  entries := ((s.entries.filter (Selected restaurantId filters)).insertionSort SnapshotLE).map
    fun e => ⟨e, latestActiveTable s e.id⟩

theorem latestActiveTable_spec (s : Store) (id : Uuid) :
    LatestActiveTable s id (latestActiveTable s id) := by
  rw [latestActiveTable]
  cases h : latest (·.assignedAt) (s.activeAssignments id) with
  | none => exact latest_none h
  | some a =>
    obtain ⟨ha, hlast⟩ := latest_spec h
    exact ⟨a, ha, rfl, hlast⟩

theorem getStaffQueueSnapshot_isSnapshot (s : Store) (r : Uuid) (filters : StaffQueueQueryFilters) :
    IsSnapshot s r filters (getStaffQueueSnapshot s r filters) := by
  have : Std.Total SnapshotLE := ⟨fun a b => by
    unfold SnapshotLE
    have := String.le_total a.id.text b.id.text
    grind⟩
  have : IsTrans QueueEntry SnapshotLE := ⟨fun a b c hab hbc => by
    unfold SnapshotLE at *
    grind [String.le_trans]⟩
  have hentries : (getStaffQueueSnapshot s r filters).entries.map (·.entry) =
      (s.entries.filter (Selected r filters)).insertionSort SnapshotLE := by
    simp [getStaffQueueSnapshot, Function.comp_def]
  refine ⟨rfl, ?_, ?_, ?_⟩
  · rw [hentries]
    exact List.perm_insertionSort _ _
  · rw [hentries]
    exact List.pairwise_insertionSort _ _
  · intro item hitem
    obtain ⟨e, -, rfl⟩ := List.mem_map.mp hitem
    exact latestActiveTable_spec s e.id

/-- What the staff are answered in these surroundings. -/
def staffView (w : World) (input : GetStaffQueueInput) : List StaffLiveQueueEntry :=
  mapToLiveQueueEntries
    (getStaffQueueSnapshot w.store (.ofText input.restaurantId) input.filters).entries (w.clock + 2)

theorem staffView_executes (script : Script) (w : World) (input : GetStaffQueueInput) :
    ∃ output w', Executes (StaffAnswers script.env) (getStaffQueue input) w (.ok output) w' ∧
      output.entries = staffView w input :=
  ⟨_, w.at (w.clock + 2), getStaffQueue_executes.mpr ⟨w.clock + 1, rfl, rfl, rfl, _,
    getStaffQueueSnapshot_isSnapshot _ _ _, rfl⟩, rfl⟩

/-- The staff read the matching parties by date and id, numbered from one. They
see the line the customers are told of exactly when nobody standing before a
listed party is filtered out or sorted below it. -/
theorem staff_line_iff (hfails : ∀ c, E.fails c → SideChannel c)
    (hrun : Run (Sequential E) (World.empty start) tr w)
    (hassign : ∀ step ∈ tr, ∀ input, step.label.operation ≠ .assignTable input)
    {input : GetStaffQueueInput} {output : GetStaffQueueOutput}
    (hstatus : input.status.getD .waiting = .waiting)
    (h : Executes (StaffAnswers E) (getStaffQueue input) w (.ok output) w') :
    (∃ l, Listing w.store (.ofText input.restaurantId) input.partySizeBucket output.entries l) ∧
    (SameLine w.store output.entries ↔
      NoneHidden w.store (.ofText input.restaurantId) input.partySizeBucket) ∧
    ((∀ a b, E.tick a b → a ≤ b) → (∀ a b, E.pause a b → a < b) → (∀ id, ¬ Moved tr id) →
      (∀ bucket ∈ input.partySizeBucket, bucket = .all) → SameLine w.store output.entries) := by
  have hessential := not_essentialFails hfails
  obtain ⟨l, hl⟩ := getStaffQueue_listing hstatus h
  obtain ⟨m, hperm, hm⟩ := run_settled hessential hrun hassign (.ofText input.restaurantId)
  have hsame := (sameLine_iff_start hl hperm hm).trans (prefix_iff_noneHidden hl hperm hm)
  refine ⟨⟨l, hl⟩, hsame, fun htick hpause hshifts hall => hsame.mpr ?_⟩
  apply run_noneHidden hessential htick hpause hrun hassign hshifts
  intro e
  cases hbucket : input.partySizeBucket with
  | none => simp [InBucket]
  | some bucket => simp [InBucket, hall bucket hbucket, PARTY_SIZE_RANGE_MAP]

theorem letPast_assign {step : Transition World Executed}
    (hstep : step ∈ smooth.history (.empty 0) letPast) (input : AssignTablesInput) :
    step.label.operation ≠ .assignTable input := by
  intro hop
  have hmem := Script.operation_mem hstep
  simp [hop, letPast, walkIn, skipBy] at hmem

theorem staff_line_iff_letPast :
    SameLine (smooth.final (.empty 0) letPast).store
        (staffView (smooth.final (.empty 0) letPast) ⟨"r", none, some .small⟩) ↔
      NoneHidden (smooth.final (.empty 0) letPast).store (.ofText "r") (some .small) := by
  obtain ⟨output, w', h, hview⟩ :=
    staffView_executes smooth (smooth.final (.empty 0) letPast) ⟨"r", none, some .small⟩
  rw [← hview]
  exact (staff_line_iff (fun _ hc => (Bool.false_ne_true hc).elim) (smooth.history_run _ _)
    (fun step hstep => letPast_assign hstep) rfl h).2.1

theorem letPast_hidden :
    ¬ ∀ (E : Env) (start : Time) (tr : History) (w w' : World) (input : GetStaffQueueInput)
      (output : GetStaffQueueOutput), (∀ c, ¬ E.fails c) →
      Run (Sequential E) (World.empty start) tr w →
      (∀ step ∈ tr, ∀ input, step.label.operation ≠ .assignTable input) →
      input.status.getD .waiting = .waiting →
      Executes (StaffAnswers E) (getStaffQueue input) w (.ok output) w' →
      SameLine w.store output.entries := by
  intro h
  obtain ⟨output, w', hexec, hview⟩ :=
    staffView_executes smooth (smooth.final (.empty 0) letPast) ⟨"r", none, none⟩
  have hsame := h smooth.env 0 _ _ w' _ output (fun _ hc => (Bool.false_ne_true hc).elim)
    (smooth.history_run _ letPast) (fun step hstep => letPast_assign hstep) rfl hexec
  have hviewed : (staffView (smooth.final (.empty 0) letPast) ⟨"r", none, none⟩).map
      (fun live => (live.position,
        storedPosition (smooth.final (.empty 0) letPast).store live.queueEntryId)) =
      [(some 1, some 2), (some 2, some 1)] := by decide +kernel
  rw [← hview] at hviewed
  have hmem : ((some 1, some 2) : Option Nat × Option Nat) ∈ output.entries.map fun live =>
      (live.position,
        storedPosition (smooth.final (.empty 0) letPast).store live.queueEntryId) := by
    rw [hviewed]
    exact List.mem_cons_self
  obtain ⟨live, hlive, heq⟩ := List.mem_map.mp hmem
  have hreported := hsame.reported live hlive
  simp only [Prod.mk.injEq] at heq
  rw [heq.1, heq.2] at hreported
  cases hreported

end SpotQueue.StaffLine
