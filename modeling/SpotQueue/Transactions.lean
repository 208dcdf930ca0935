import SpotQueue.UseCases

namespace SpotQueue.Transactions

open SpotQueue.Entity SpotQueue.Repository SpotQueue.Environment SpotQueue.UseCases
open SpotQueue.Awaits.AsyncProgram

/-- The two where clauses of createWithHistory; both ask for a WAITING row. -/
inductive Where
  | user (userId : Uuid)
  | phone (restaurantId : Uuid) (number : String)
deriving DecidableEq

def Where.Matches : Where → QueueEntry → Prop
  | .user userId, e => e.userId = some userId ∧ e.status = .waiting
  | .phone restaurantId number, e =>
    e.restaurantId = restaurantId ∧ e.phone = number ∧ e.status = .waiting

instance (filter : Where) : DecidablePred filter.Matches := fun e => by
  cases filter <;> unfold Where.Matches <;> infer_instance

inductive Query
  | findFirst (filter : Where)
  | create (data : QueueEntry)
  | createHistory (queueEntryId : Uuid) (previousStatus : Option QueueStatus)
      (currentStatus : QueueStatus) (changedBy : Option String)

@[reducible] def Query.Result : Query → Type
  | .findFirst _ => Option QueueEntry
  | .create _ => QueueEntry
  | .createHistory _ _ _ _ => Unit

abbrev TransactionId := Nat

/-- The calls of a use case whose createWithHistory is taken apart. -/
inductive Statement
  | outside (c : Call)
  | beginTransaction
  | within (tx : TransactionId) (query : Query)
  | commit (tx : TransactionId)
  | rollback (tx : TransactionId)

@[reducible] def Result : Statement → Type
  | .outside c => Answer c
  | .beginTransaction => TransactionId
  | .within _ query => query.Result
  | .commit _ | .rollback _ => Unit

abbrev Session (α : Type) := Program Statement Result QueueError α

abbrev execute (c : Statement) : Session (Result c) := call c

abbrev send (tx : TransactionId) (query : Query) : Session query.Result := execute (.within tx query)

def abandon {α : Type} (tx : TransactionId) (err : QueueError) : Session α := do
  tryCatch (execute (.rollback tx)) fun _ => pure ()
  throw err

/-- `$transaction`: a callback that throws is rolled back, and what it threw goes on. -/
def transaction {α : Type} (body : TransactionId → Session α) : Session α := do
  let tx ← execute .beginTransaction
  let result ← tryCatch (body tx) (abandon tx)
  execute (.commit tx)
  return result

/-- One of the two look-ups; a row it finds is an error. -/
def recheck (tx : TransactionId) (filter : Where) (err : QueueError) : Session Unit := do
  let existing ← send tx (.findFirst filter)
  if existing.isSome then throw err

def recheckUser (tx : TransactionId) (e : QueueEntry) : Session Unit :=
  match e.userId with
  | some userId => recheck tx (.user userId) .activeUserQueueEntryExists
  | none => pure ()

def recheckPhone (tx : TransactionId) (e : QueueEntry) : Session Unit :=
  recheck tx (.phone e.restaurantId e.phone) (.activeQueueEntryExists e.phone)

def inserts (queueEntry : QueueEntry) (changedBy : String) (tx : TransactionId) :
    Session QueueEntry := do
  let created ← send tx (.create queueEntry)
  send tx (.createHistory created.id none created.status (some changedBy))
  return created

/-- The callback of createWithHistory. -/
def callback (queueEntry : QueueEntry) (changedBy : String) (tx : TransactionId) :
    Session QueueEntry := do
  recheckUser tx queueEntry
  recheckPhone tx queueEntry
  inserts queueEntry changedBy tx

def createWithHistory (queueEntry : QueueEntry) (changedBy : String) : Session QueueEntry :=
  transaction (callback queueEntry changedBy)

def statements : (c : Call) → Session (Answer c)
  | .createWithHistory queueEntry changedBy => createWithHistory queueEntry changedBy
  | c => execute (.outside c)

/-- The rows a transaction has written and not committed yet. -/
structure Transaction where
  entries : List QueueEntry
  history : List StatusHistory

structure Database where
  world : World
  transactions : TransactionId → Option Transaction
  started : TransactionId

def Database.of (w : World) : Database := ⟨w, fun _ => none, 0⟩

def Database.at (d : Database) (t : Time) : Database := { d with world := d.world.at t }

def Database.begin (d : Database) : Database :=
  { d with
    transactions := Function.update d.transactions d.started (some ⟨[], []⟩)
    started := d.started + 1 }

def Database.write (d : Database) (tx : TransactionId) (t : Transaction) : Database :=
  { d with transactions := Function.update d.transactions tx (some t) }

def Database.close (d : Database) (tx : TransactionId) : Database :=
  { d with transactions := Function.update d.transactions tx none }

def Store.append (s : Store) (t : Transaction)
    (h : ((s.entries ++ t.entries).map (·.id)).Nodup) : Store :=
  { s with
    entries := s.entries ++ t.entries
    history := s.history ++ t.history
    key := h }

theorem Store.append_congr {s s' : Store} {t : Transaction} (hs : s = s')
    {h : ((s.entries ++ t.entries).map (·.id)).Nodup}
    {h' : ((s'.entries ++ t.entries).map (·.id)).Nodup} : Store.append s t h = Store.append s' t h' := by
  subst hs
  rfl

/-- READ COMMITTED: what is committed when the statement runs, and its own rows. -/
def Database.visible (d : Database) (t : Transaction) : List QueueEntry :=
  d.world.store.entries ++ t.entries

/-- No row has this primary key, also none that another transaction may still commit. -/
def Database.Fresh (d : Database) (id : Uuid) : Prop :=
  (∀ r ∈ d.world.store.entries, r.id ≠ id) ∧
    ∀ tx < d.started, ∀ t ∈ d.transactions tx, ∀ r ∈ t.entries, r.id ≠ id

instance (d : Database) (id : Uuid) : Decidable (d.Fresh id) := by
  rw [Database.Fresh]
  infer_instance

def Query.Runs : (query : Query) → Database → Transaction → query.Result → Transaction → Prop
  | .findFirst filter, d, t, o, t' =>
    (∀ e ∈ o, e ∈ d.visible t ∧ filter.Matches e) ∧
      (o = none → ∀ e ∈ d.visible t, ¬ filter.Matches e) ∧ t' = t
  | .create data, d, t, created, t' =>
    d.Fresh data.id ∧ created = data ∧ t' = { t with entries := t.entries ++ [data] }
  | .createHistory queueEntryId previousStatus currentStatus changedBy, d, t, _, t' =>
    t' = { t with history := t.history ++
      [⟨queueEntryId, previousStatus, currentStatus, changedBy, none, none, d.world.clock⟩] }

/-- A statement that does not succeed ends its transaction: a key that is taken,
a lock not granted in time, a lost connection. -/
def Settled : (c : Statement) → Database → Except QueueError (Result c) → Database → Prop
  | .outside _, _, _, _ => False
  | .beginTransaction, d, x, d' =>
    x = .ok d.started ∧ d' = d.begin ∨ x = .error .dependency ∧ d' = d
  | .within tx query, d, x, d' =>
    (∃ t ∈ d.transactions tx, ∃ o t', query.Runs d t o t' ∧ x = .ok o ∧ d' = d.write tx t') ∨
      x = .error .dependency ∧ d' = d.close tx
  | .commit tx, d, x, d' =>
    (∃ t ∈ d.transactions tx, ∃ h, x = .ok () ∧
      d' = { d.close tx with world := d.world.commit (Store.append d.world.store t h) }) ∨
      x = .error .dependency ∧ d' = d.close tx
  | .rollback tx, d, x, d' => (x = .ok () ∨ x = .error .dependency) ∧ d' = d.close tx

/-- The statements of different sessions take effect one at a time. -/
def Settles (E : Env) : Answers Statement Result QueueError Database
  | .outside c, d, x, d' => ∃ w', E.Answers c d.world x w' ∧ d' = { d with world := w' }
  | c, d, x, d' => ∃ t, E.tick d.world.clock t ∧ Settled c (d.at t) x d'

variable {E : Env} {d d' : Database} {tx : TransactionId} {e : QueueEntry}

theorem user_unmatched {s : Store} {userId : Uuid} :
    (∀ r ∈ s.entries, ¬ (Where.user userId).Matches r) ↔ s.activeByUserId userId = [] := by
  simp [Store.activeByUserId, Where.Matches, List.filter_eq_nil_iff]

theorem phone_unmatched {s : Store} {restaurantId : Uuid} {number : String} :
    (∀ r ∈ s.entries, ¬ (Where.phone restaurantId number).Matches r) ↔
      s.activeByPhone restaurantId number = [] := by
  simp only [Store.activeByPhone, Store.waiting, List.filter_eq_nil_iff, List.mem_filter,
    decide_eq_true_eq, Where.Matches]
  exact ⟨fun h r hr hp => h r hr.1 ⟨hr.2.1, hp, hr.2.2⟩, fun h r hr hm => h r ⟨hr, hm.1, hm.2.2⟩ hm.2.1⟩

theorem settles_within {query : Query} {x : Except QueueError query.Result}
    (h : Settles E (.within tx query) d x d') :
    d'.world.store = d.world.store ∧
      ((∃ now, ∃ t ∈ d.transactions tx, ∃ o t', query.Runs (d.at now) t o t' ∧ x = .ok o ∧
        d'.transactions tx = some t') ∨ x = .error .dependency ∧ d'.transactions tx = none) := by
  obtain ⟨now, -, ⟨t, ht, o, t', hruns, hx, rfl⟩ | ⟨hx, rfl⟩⟩ := h
  · exact ⟨rfl, .inl ⟨now, t, ht, o, t', hruns, hx, Function.update_self _ _ _⟩⟩
  · exact ⟨rfl, .inr ⟨hx, Function.update_self _ _ _⟩⟩

/-- A look-up in front of the first write: it sees what is committed. -/
theorem settles_findFirst {filter : Where} {x : Except QueueError (Option QueueEntry)}
    (ht : d.transactions tx = some ⟨[], []⟩) (h : Settles E (.within tx (.findFirst filter)) d x d') :
    d'.world.store = d.world.store ∧
      ((∃ o, x = .ok o ∧ d'.transactions tx = some ⟨[], []⟩ ∧
        (o.isSome ↔ ∃ r ∈ d.world.store.entries, filter.Matches r)) ∨ x = .error .dependency) := by
  obtain ⟨hstore, ⟨now, t, ht', o, t', ⟨hsome, hnone, rfl⟩, hx, hd'⟩ | ⟨hx, -⟩⟩ := settles_within h
  · refine ⟨hstore, .inl ⟨o, hx, ?_⟩⟩
    cases ht.symm.trans ht'
    refine ⟨hd', fun ho => ?_, fun ⟨r, hr, hmatch⟩ => ?_⟩
    · obtain ⟨r, rfl⟩ := Option.isSome_iff_exists.mp ho
      obtain ⟨hr, hmatch⟩ := hsome r rfl
      exact ⟨r, by simpa [Database.visible, Database.at, World.at] using hr, hmatch⟩
    · by_contra ho
      exact hnone (by simpa using ho) r (List.mem_append_left _ hr) hmatch
  · exact ⟨hstore, .inr hx⟩

theorem recheck_executes {filter : Where} {err : QueueError} {x : Except QueueError Unit}
    (ht : d.transactions tx = some ⟨[], []⟩)
    (h : Executes (Settles E) (recheck tx filter err) d x d') :
    d'.world.store = d.world.store ∧
      (x = .ok () ∧ d'.transactions tx = some ⟨[], []⟩ ∧
          (∀ r ∈ d.world.store.entries, ¬ filter.Matches r) ∨
        x = .error .dependency ∨
        x = .error err ∧ ∃ r ∈ d.world.store.entries, filter.Matches r) := by
  obtain ⟨o, u, hfind, h⟩ | ⟨err, rfl, hfind⟩ := executes_call_bind h
  · obtain ⟨hstore, ⟨o', ho, hu, hsome⟩ | hx⟩ := settles_findFirst ht hfind
    · cases ho
      cases o with
      | some r =>
        obtain ⟨rfl, rfl⟩ := executes_throw.mp h
        exact ⟨hstore, .inr (.inr ⟨rfl, hsome.mp rfl⟩)⟩
      | none =>
        obtain ⟨rfl, rfl⟩ := executes_pure.mp h
        exact ⟨hstore, .inl ⟨rfl, hu, fun r hr hmatch => by simpa using hsome.mpr ⟨r, hr, hmatch⟩⟩⟩
    · cases hx
  · obtain ⟨hstore, ⟨o', ho, -⟩ | hx⟩ := settles_findFirst ht hfind
    · cases ho
    · cases hx
      exact ⟨hstore, .inr (.inl rfl)⟩

theorem recheckUser_executes {x : Except QueueError Unit} (ht : d.transactions tx = some ⟨[], []⟩)
    (h : Executes (Settles E) (recheckUser tx e) d x d') :
    d'.world.store = d.world.store ∧
      (x = .ok () ∧ d'.transactions tx = some ⟨[], []⟩ ∧
          (∀ u ∈ e.userId, d.world.store.activeByUserId u = []) ∨
        x = .error .dependency ∨
        x = .error .activeUserQueueEntryExists ∧ ∃ u ∈ e.userId, d.world.store.activeByUserId u ≠ []) := by
  rw [recheckUser] at h
  split at h
  · rename_i userId huser
    simp only [huser, Option.mem_def, Option.some.injEq, forall_eq', exists_eq_left', ne_eq,
      ← user_unmatched, not_forall, not_not, exists_prop]
    exact recheck_executes ht h
  · rename_i huser
    obtain ⟨rfl, rfl⟩ := executes_pure.mp h
    exact ⟨rfl, .inl ⟨rfl, ht, by simp [huser]⟩⟩

theorem recheckPhone_executes {x : Except QueueError Unit} (ht : d.transactions tx = some ⟨[], []⟩)
    (h : Executes (Settles E) (recheckPhone tx e) d x d') :
    d'.world.store = d.world.store ∧
      (x = .ok () ∧ d'.transactions tx = some ⟨[], []⟩ ∧
          d.world.store.activeByPhone e.restaurantId e.phone = [] ∨
        x = .error .dependency ∨
        x = .error (.activeQueueEntryExists e.phone) ∧
          d.world.store.activeByPhone e.restaurantId e.phone ≠ []) := by
  simp only [ne_eq, ← phone_unmatched, not_forall, not_not, exists_prop]
  exact recheck_executes ht h

/-- The two inserts of createWithHistory. -/
theorem inserts_executes {changedBy : String} {x : Except QueueError QueueEntry}
    (ht : d.transactions tx = some ⟨[], []⟩)
    (h : Executes (Settles E) (inserts e changedBy tx) d x d') :
    d'.world.store = d.world.store ∧
      ((x = .ok e ∧ e.id ∉ d.world.store.entries.map (·.id) ∧
          ∃ now, d'.transactions tx =
            some ⟨[e], [⟨e.id, none, e.status, some changedBy, none, none, now⟩]⟩) ∨
        x = .error .dependency) := by
  obtain ⟨created, u, hcreate, h⟩ | ⟨err, rfl, hcreate⟩ := executes_call_bind h
  · obtain ⟨hu, ⟨_, t, ht', _, t', hruns, ho, hut⟩ | ⟨hx, -⟩⟩ := settles_within hcreate
    · cases ho
      cases ht.symm.trans ht'
      obtain ⟨hfresh, hcreated, hrow⟩ := hruns
      rw [hcreated] at h
      rw [hrow] at hut
      obtain ⟨_, v, hlog, h⟩ | ⟨err, rfl, hlog⟩ := executes_call_bind h
      · obtain ⟨hv, ⟨now, t, ht'', _, t', hruns, ho, hvt⟩ | ⟨hx, -⟩⟩ := settles_within hlog
        · cases hut.symm.trans ht''
          rw [show t' = _ from hruns] at hvt
          obtain ⟨rfl, rfl⟩ := executes_pure.mp h
          refine ⟨hv.trans hu, .inl ⟨rfl, ?_, now, hvt⟩⟩
          rw [List.mem_map]
          rintro ⟨r, hr, hid⟩
          exact hfresh.1 r hr hid
        · cases hx
      · obtain ⟨hv, ⟨_, _, _, _, _, _, ho, _⟩ | ⟨hx, -⟩⟩ := settles_within hlog
        · cases ho
        · cases hx
          exact ⟨hv.trans hu, .inr rfl⟩
    · cases hx
  · obtain ⟨hu, ⟨_, _, _, _, _, _, ho, _⟩ | ⟨hx, -⟩⟩ := settles_within hcreate
    · cases ho
    · cases hx
      exact ⟨hu, .inr rfl⟩

/-- The callback of createWithHistory, in a transaction that has written nothing. -/
theorem callback_executes {changedBy : String} {x : Except QueueError QueueEntry}
    (ht : d.transactions tx = some ⟨[], []⟩)
    (h : Executes (Settles E) (callback e changedBy tx) d x d') :
    d'.world.store = d.world.store ∧
      ((x = .ok e ∧ ∃ now t hfresh, d'.transactions tx = some t ∧
          d.world.store.createWithHistory e changedBy now = .ok (Store.append d.world.store t hfresh)) ∨
        ∃ err, x = .error err ∧
          (err = .dependency ∨ ∀ now, d.world.store.createWithHistory e changedBy now = .error err)) := by
  obtain ⟨_, u, huser, h⟩ | ⟨err, rfl, huser⟩ := executes_bind h
  swap
  · obtain ⟨hu, ⟨hx, -⟩ | hx | ⟨hx, hactive⟩⟩ := recheckUser_executes ht huser
    · cases hx
    · exact ⟨hu, .inr ⟨err, rfl, .inl (Except.error.inj hx)⟩⟩
    · cases hx
      refine ⟨hu, .inr ⟨_, rfl, .inr fun now => ?_⟩⟩
      rw [Store.createWithHistory, if_pos hactive]
  obtain ⟨hu, ⟨-, hut, hnouser⟩ | hx | ⟨hx, -⟩⟩ := recheckUser_executes ht huser
  rotate_left
  · cases hx
  · cases hx
  have hcheck : ¬ ∃ userId ∈ e.userId, d.world.store.activeByUserId userId ≠ [] := by
    rintro ⟨userId, hid, hactive⟩
    exact hactive (hnouser userId hid)
  obtain ⟨_, v, hphone, h⟩ | ⟨err, rfl, hphone⟩ := executes_bind h
  swap
  · obtain ⟨hv, ⟨hx, -⟩ | hx | ⟨hx, hactive⟩⟩ := recheckPhone_executes hut hphone
    · cases hx
    · exact ⟨hv.trans hu, .inr ⟨err, rfl, .inl (Except.error.inj hx)⟩⟩
    · cases hx
      refine ⟨hv.trans hu, .inr ⟨_, rfl, .inr fun now => ?_⟩⟩
      rw [hu] at hactive
      rw [Store.createWithHistory, if_neg hcheck, if_pos hactive]
  obtain ⟨hv, ⟨-, hvt, hnophone⟩ | hx | ⟨hx, -⟩⟩ := recheckPhone_executes hut hphone
  rotate_left
  · cases hx
  · cases hx
  rw [hu] at hnophone
  obtain ⟨hd', ⟨rfl, hfresh, now, hd't⟩ | rfl⟩ := inserts_executes hvt h
  · rw [hv, hu] at hfresh
    exact ⟨hd'.trans (hv.trans hu), .inl ⟨rfl, now, ⟨[e], _⟩, (d.world.store.insert e hfresh).key,
      hd't, Store.createWithHistory_ok.mpr ⟨hnouser, hnophone, hfresh, rfl⟩⟩⟩
  · exact ⟨hd'.trans (hv.trans hu), .inr ⟨_, rfl, .inl rfl⟩⟩

theorem rollback_executes {α : Type} {err : QueueError} {x : Except QueueError α}
    (h : Executes (Settles E) (abandon tx err) d x d') :
    d'.world.store = d.world.store ∧ x = .error err := by
  have hresolves : ∀ {u y},
      Executes (Settles E) (tryCatch (execute (.rollback tx)) fun _ => pure ()) d y u →
      u.world.store = d.world.store ∧ y = .ok () := by
    intro u y h
    obtain ⟨_, rfl, hroll⟩ | ⟨_, v, hroll, hdone⟩ := executes_attempt h
    · obtain ⟨_, -, -, rfl⟩ := executes_call.mp hroll
      exact ⟨rfl, rfl⟩
    · obtain ⟨rfl, rfl⟩ := executes_pure.mp hdone
      obtain ⟨_, -, -, rfl⟩ := executes_call.mp hroll
      exact ⟨rfl, rfl⟩
  obtain ⟨_, u, hroll, hthrow⟩ | ⟨_, -, hroll⟩ := executes_bind h
  · obtain ⟨rfl, rfl⟩ := executes_throw.mp hthrow
    exact ⟨(hresolves hroll).1, rfl⟩
  · cases (hresolves hroll).2

/-- Taken apart into its statements and run alone, createWithHistory does what it
does as one call, or fails and leaves the store as it was. -/
theorem createWithHistory_alone {changedBy : String} {x : Except QueueError QueueEntry}
    (h : Executes (Settles E) (createWithHistory e changedBy) d x d') :
    (∃ now, d.world.store.createWithHistory e changedBy now = .ok d'.world.store ∧ x = .ok e) ∨
      d'.world.store = d.world.store ∧ ∃ err, x = .error err ∧
        (err = .dependency ∨ ∀ now, d.world.store.createWithHistory e changedBy now = .error err) := by
  obtain ⟨tx, u, hbegin, h⟩ | ⟨err, rfl, hbegin⟩ := executes_call_bind h
  swap
  · obtain ⟨now, -, ⟨hx, -⟩ | ⟨hx, rfl⟩⟩ := hbegin
    · cases hx
    · exact .inr ⟨rfl, err, rfl, .inl (Except.error.inj hx)⟩
  obtain ⟨now, -, ⟨hx, rfl⟩ | ⟨hx, -⟩⟩ := hbegin
  swap
  · cases hx
  cases hx
  have hopen : (d.at now).begin.transactions (d.at now).started = some ⟨[], []⟩ :=
    Function.update_self _ _ _
  obtain ⟨a, v, hbody, h⟩ | ⟨err, rfl, hbody⟩ := executes_bind h
  · obtain ⟨b, ha, hbody⟩ | ⟨err, z, -, hroll⟩ := executes_attempt hbody
    · cases ha
      obtain ⟨hv, ⟨hx, now', t, hfresh, hvt, hcreate⟩ | ⟨err, hx, -⟩⟩ := callback_executes hopen hbody
      · cases hx
        obtain ⟨_, z, hcommit, h⟩ | ⟨err, rfl, hcommit⟩ := executes_call_bind h
        · obtain ⟨rfl, rfl⟩ := executes_pure.mp h
          obtain ⟨_, -, ⟨t', ht', hnodup, -, rfl⟩ | ⟨hx, -⟩⟩ := hcommit
          · cases hvt.symm.trans ht'
            refine .inl ⟨now', hcreate.trans ?_, rfl⟩
            congr 1
            exact Store.append_congr hv.symm
          · cases hx
        · obtain ⟨_, -, ⟨_, _, _, hx, -⟩ | ⟨hx, rfl⟩⟩ := hcommit
          · cases hx
          · exact .inr ⟨hv, err, rfl, .inl (Except.error.inj hx)⟩
      · cases hx
    · cases (rollback_executes hroll).2
  · obtain ⟨_, ha, -⟩ | ⟨err', z, hbody, hroll⟩ := executes_attempt hbody
    · cases ha
    obtain ⟨hv, ⟨hx, -⟩ | ⟨_, hx, herr⟩⟩ := callback_executes hopen hbody
    · cases hx
    · cases hx
      obtain ⟨hd', hx⟩ := rollback_executes hroll
      cases hx
      exact .inr ⟨hd'.trans hv, err, rfl, herr⟩

end SpotQueue.Transactions
