import SpotQueue.Transactions
import SpotQueue.Registration
import SpotQueue.Simulation
import SpotQueue.Awaits.AsyncPool

namespace SpotQueue.DuplicateTickets

open SpotQueue.Entity SpotQueue.Repository SpotQueue.Environment SpotQueue.UseCases
open SpotQueue.Frame SpotQueue.Guards SpotQueue.Registration SpotQueue.Transactions
open SpotQueue.Simulation
open SpotQueue.Awaits.AsyncProgram SpotQueue.Awaits.AsyncProtocol SpotQueue.Awaits.AsyncPool
open SpotQueue.Awaits.LabelledRun

variable {ι : Type} {E : Env}

/-- Registrations under way at the same time, statement by statement. -/
abbrev Registrations (ι : Type) := Pool ι Statement Result QueueError RegisterQueueOutput Database

abbrev Course (ι : Type) := Schedule ι Statement Result QueueError RegisterQueueOutput Database

def registering (inputs : ι → RegisterQueueInput) (w : World) : Registrations ι :=
  ⟨fun i => expand statements (registerQueue (inputs i)), .of w⟩

/-- No two WAITING entries for one phone at a restaurant, none for one user. -/
structure NoDuplicates (s : Store) : Prop where
  phone : ∀ a ∈ s.entries, ∀ b ∈ s.entries, a.status = .waiting → b.status = .waiting →
    a.restaurantId = b.restaurantId → a.phone = b.phone → a = b
  user : ∀ a ∈ s.entries, ∀ b ∈ s.entries, a.status = .waiting → b.status = .waiting →
    ∀ userId ∈ a.userId, userId ∈ b.userId → a = b

instance : DecidablePred NoDuplicates := fun s =>
  decidable_of_iff
    ((∀ a ∈ s.entries, ∀ b ∈ s.entries, a.status = .waiting → b.status = .waiting →
        a.restaurantId = b.restaurantId → a.phone = b.phone → a = b) ∧
      ∀ a ∈ s.entries, ∀ b ∈ s.entries, a.status = .waiting → b.status = .waiting →
        ∀ userId ∈ a.userId, userId ∈ b.userId → a = b)
    ⟨fun h => ⟨h.1, h.2⟩, fun h => ⟨h.phone, h.user⟩⟩

theorem noDuplicates_iff {s : Store} : NoDuplicates s ↔ ∀ (filter : Where), ∀ a ∈ s.entries,
    ∀ b ∈ s.entries, filter.Matches a → filter.Matches b → a = b := by
  constructor
  · rintro ⟨hphone, huser⟩ (userId | ⟨restaurantId, number⟩) a ha b hb hma hmb
    · exact huser a ha b hb hma.2 hmb.2 userId hma.1 hmb.1
    · exact hphone a ha b hb hma.2.2 hmb.2.2 (hma.1.trans hmb.1.symm) (hma.2.1.trans hmb.2.1.symm)
  · intro h
    refine ⟨fun a ha b hb hwa hwb hr hp => ?_, fun a ha b hb hwa hwb userId hua hub => ?_⟩
    · exact h (.phone b.restaurantId b.phone) a ha b hb ⟨hr, hp, hwa⟩ ⟨rfl, rfl, hwb⟩
    · exact h (.user userId) a ha b hb ⟨hua, hwa⟩ ⟨hub, hwb⟩

/-- The step is a commit that went through, and this row is among what it commits. -/
def Commits (step : Transition (Registrations ι) (Step ι Statement Result QueueError))
    (tx : TransactionId) (e : QueueEntry) : Prop :=
  (∃ i, step.label = ⟨i, .commit tx, .ok ()⟩) ∧
    ∃ t ∈ step.before.state.transactions tx, e ∈ t.entries

/-- The transaction looks for such a ticket here and finds none. -/
def Clears (step : Transition (Registrations ι) (Step ι Statement Result QueueError))
    (tx : TransactionId) (filter : Where) : Prop :=
  ∃ i, step.label = ⟨i, .within tx (.findFirst filter), .ok none⟩

/-- Since the transaction looked for a ticket like this one, another was committed. -/
def Overtaken (past : Course ι) (tx : TransactionId) (e : QueueEntry) : Prop :=
  ∃ filter, filter.Matches e ∧ ∃ pre look mid, past = pre ++ look :: mid ∧ Clears look tx filter ∧
    ∃ step ∈ mid, ∃ tx' r, Commits step tx' r ∧ filter.Matches r

/-- No ticket is committed that has been overtaken. -/
def Unovertaken (tr : Course ι) : Prop :=
  ∀ pre step post, tr = pre ++ step :: post → ∀ tx e, Commits step tx e → ¬ Overtaken pre tx e

/-- Where a session stands: outside any transaction, or in one, with the look-ups
it has answered and the ticket it has inserted. -/
inductive Mode
  | outside
  | within (tx : TransactionId) (cleared : List Where) (ticket : Option QueueEntry)

/-- A ticket is inserted after every look-up it would answer, and a transaction
commits after it has inserted one. -/
def transacting : Protocol Statement Result QueueError Mode where
  allows
    | .outside, .outside c => ¬ DatabaseWrite c
    | .outside, .beginTransaction => True
    | .within tx _ none, .within tx' (.findFirst _) => tx' = tx
    | .within tx cleared none, .within tx' (.create e) =>
      tx' = tx ∧ ∀ filter : Where, filter.Matches e → filter ∈ cleared
    | .within tx _ (some _), .within tx' (.createHistory _ _ _ _) => tx' = tx
    | .within tx _ (some _), .commit tx' => tx' = tx
    | .within tx _ _, .rollback tx' => tx' = tx
    | _, _ => False
  expects _ _ _ := True
  next
    | .outside, .beginTransaction, .ok tx => .within tx [] none
    | .within tx cleared none, .within _ (.findFirst filter), .ok none =>
      .within tx (filter :: cleared) none
    | .within tx cleared none, .within _ (.create e), .ok _ => .within tx cleared (some e)
    | .within _ _ _, .commit _, _ => .outside
    | .within _ _ _, .rollback _, _ => .outside
    | m, _, _ => m

def InTransaction (tx : TransactionId) (m : Mode) : Prop := ∃ cleared ticket, m = .within tx cleared ticket

def Inserted (tx : TransactionId) (m : Mode) : Prop := ∃ cleared e, m = .within tx cleared (some e)

/-- The mode a body ends in, if it returns and if it throws. -/
def Ends {α : Type} (returns throws : Mode → Prop) (m : Mode) : Except QueueError α → Prop
  | .ok _ => returns m
  | .error _ => throws m

theorem follows_abandon {α : Type} {tx : TransactionId} {err : QueueError} {m : Mode}
    (hm : InTransaction tx m) :
    Follows transacting (Ends (α := α) (fun _ => False) (· = .outside)) m (abandon tx err) := by
  obtain ⟨cleared, ticket, rfl⟩ := hm
  cases ticket <;> exact ⟨rfl, fun x _ => by cases x <;> rfl⟩

theorem follows_transaction {α : Type} {body : TransactionId → Session α}
    (hbody : ∀ tx, Follows transacting (Ends (Inserted tx) (InTransaction tx)) (.within tx [] none)
      (body tx)) :
    Follows transacting (fun m _ => m = .outside) .outside (transaction body) := by
  refine ⟨trivial, fun x _ => ?_⟩
  cases x with
  | error err => rfl
  | ok tx =>
    have hattempt : Follows transacting (Ends (Inserted tx) (· = .outside)) (.within tx [] none)
        (tryCatch (body tx) (abandon tx)) := by
      refine follows_attempt (hbody tx) (fun m a hm => hm) fun m err hm => ?_
      refine follows_mono (fun m x hx => ?_) (follows_abandon hm)
      cases x with
      | ok a => exact hx.elim
      | error err => exact hx
    change Follows transacting _ (.within tx [] none) (tryCatch (body tx) (abandon tx) >>= _)
    refine follows_bind hattempt ?_ fun m err hm => hm
    rintro m a ⟨cleared, e, rfl⟩
    exact ⟨rfl, fun x _ => by cases x <;> rfl⟩

theorem follows_recheck {tx : TransactionId} {cleared : List Where} {filter : Where} {err : QueueError} :
    Follows transacting (Ends (· = .within tx (filter :: cleared) none) (InTransaction tx))
      (.within tx cleared none) (recheck tx filter err) := by
  refine ⟨rfl, fun x _ => ?_⟩
  rcases x with err | _ | r
  · exact ⟨_, _, rfl⟩
  · rfl
  · exact ⟨_, _, rfl⟩

/-- Every look-up that a ticket would answer. -/
def lookups (e : QueueEntry) : List Where :=
  .phone e.restaurantId e.phone :: (e.userId.map .user).toList

theorem matches_lookups {filter : Where} {e : QueueEntry} (h : filter.Matches e) :
    filter ∈ lookups e := by
  cases filter with
  | user userId => simp [lookups, h.1]
  | phone restaurantId number => simp [lookups, h.1, h.2.1]

theorem follows_recheckUser {tx : TransactionId} {e : QueueEntry} :
    Follows transacting (Ends (· = .within tx (e.userId.map .user).toList none) (InTransaction tx))
      (.within tx [] none) (recheckUser tx e) := by
  rw [recheckUser]
  cases e.userId with
  | none => rfl
  | some userId => exact follows_recheck

theorem follows_callback (e : QueueEntry) (changedBy : String) (tx : TransactionId) :
    Follows transacting (Ends (Inserted tx) (InTransaction tx)) (.within tx [] none)
      (callback e changedBy tx) := by
  refine follows_bind follows_recheckUser ?_ fun m err hm => hm
  rintro m _ rfl
  refine follows_bind follows_recheck ?_ fun m err hm => hm
  rintro m _ rfl
  refine ⟨⟨rfl, fun filter => matches_lookups⟩, fun x _ => ?_⟩
  cases x with
  | error err => exact ⟨_, _, rfl⟩
  | ok created =>
    refine ⟨rfl, fun x _ => ?_⟩
    cases x with
    | error err => exact ⟨_, _, rfl⟩
    | ok _ => exact ⟨_, _, rfl⟩

/-- What a registration asks for, createWithHistory apart. -/
def Registers : Call → Prop
  | .createWithHistory _ _ => True
  | c => ¬ DatabaseWrite c

theorem registers_quiet {c : Call} (h : Quiet c) : Registers c := by
  cases c <;> first | trivial | exact quiet_not_write h

theorem issues_registerQueue (input : RegisterQueueInput) : Issues Registers (registerQueue input) := by
  have hquiet : ∀ {α : Type} {p : UseCase α}, Issues Quiet p → Issues Registers p :=
    fun h => issues_mono (fun _ => registers_quiet) h
  refine issues_bind (hquiet (issues_mono (fun _ h => .inl (admission_reads h))
    (issues_checkAdmission input))) fun _ => ?_
  refine issues_bind (issues_call id) fun metrics => issues_bind (issues_call id) fun minutes =>
    issues_bind (issues_call id) fun id' => issues_bind (issues_call id) fun now =>
    issues_bind (issues_call trivial) fun persisted => ?_
  exact issues_bind (hquiet (issues_mono (fun _ => announcement_quiet) (issues_announce _ _ _ _)))
    fun _ => issues_pure _

theorem follows_statements {c : Call} (hc : Registers c) :
    Follows transacting (fun m _ => m = .outside) .outside (statements c) := by
  cases c with
  | createWithHistory e changedBy => exact follows_transaction (follows_callback e changedBy)
  | _ => exact follows_call (by exact hc) fun _ _ => rfl

theorem follows_registering (inputs : ι → RegisterQueueInput) (w : World) (i : ι) :
    Follows transacting (fun m _ => m = .outside) .outside ((registering inputs w).bodies i) :=
  follows_expand (issues_registerQueue (inputs i)) fun _ => follows_statements

/-- Where the look-up of a transaction stands in the course of events: every
ticket it would find now was committed after it. -/
def LookedUp (tr : Course ι) (s : Store) (tx : TransactionId) (filter : Where) : Prop :=
  ∃ pre look mid, tr = pre ++ look :: mid ∧ Clears look tx filter ∧
    ∀ r ∈ s.entries, filter.Matches r → ∃ step ∈ mid, ∃ tx', Commits step tx' r

def Holds (tr : Course ι) (d : Database) : Mode → Prop
  | .outside => True
  | .within tx cleared ticket =>
    tx < d.started ∧ (∀ t ∈ d.transactions tx, t.entries = ticket.toList) ∧
      (∀ e ∈ ticket, ∀ filter : Where, filter.Matches e → filter ∈ cleared) ∧
      ∀ filter ∈ cleared, LookedUp tr d.world.store tx filter

structure Tracked (tr : Course ι) (modes : ι → Mode) (d : Database) : Prop where
  holds : ∀ i, Holds tr d (modes i)
  apart : ∀ i j tx, InTransaction tx (modes i) → InTransaction tx (modes j) → i = j
  stays : ∀ step ∈ tr, ∀ tx e, Commits step tx e → e ∈ d.world.store.entries

def Touches (tx : TransactionId) : Statement → Prop
  | .within tx' _ | .commit tx' | .rollback tx' => tx' = tx
  | _ => False

theorem touches_inTransaction {m : Mode} {c : Statement} {tx : TransactionId}
    (hm : transacting.allows m c) (hc : Touches tx c) : InTransaction tx m := by
  cases c with
  | outside | beginTransaction => exact hc.elim
  | commit tx' =>
    cases hc
    rcases m with _ | ⟨tx', cleared, _ | e⟩ <;> first | exact hm.elim | (cases hm; exact ⟨_, _, rfl⟩)
  | rollback tx' =>
    cases hc
    rcases m with _ | ⟨tx', cleared, _ | e⟩ <;> first | exact hm.elim | (cases hm; exact ⟨_, _, rfl⟩)
  | within tx' query =>
    cases hc
    rcases m with _ | ⟨tx', cleared, _ | e⟩ <;> cases query <;>
      first | exact hm.elim | (cases hm; exact ⟨_, _, rfl⟩) | (cases hm.1; exact ⟨_, _, rfl⟩)

/-- What one statement does to everything but its own transaction. -/
structure Moves (step : Transition (Registrations ι) (Step ι Statement Result QueueError))
    (d d' : Database) : Prop where
  started : d.started ≤ d'.started
  kept : ∀ r ∈ d.world.store.entries, r ∈ d'.world.store.entries
  added : ∀ r ∈ d'.world.store.entries, r ∈ d.world.store.entries ∨ ∃ tx, Commits step tx r
  committed : ∀ tx r, Commits step tx r → r ∈ d'.world.store.entries
  untouched : ∀ tx < d.started, ¬ Touches tx step.label.call → d'.transactions tx = d.transactions tx

theorem moves_same {step : Transition (Registrations ι) (Step ι Statement Result QueueError)}
    {d d' : Database} (hstarted : d.started ≤ d'.started) (hstore : d'.world.store = d.world.store)
    (hcommit : ∀ tx r, ¬ Commits step tx r)
    (huntouched : ∀ tx < d.started, ¬ Touches tx step.label.call →
      d'.transactions tx = d.transactions tx) : Moves step d d' :=
  ⟨hstarted, fun _ hr => hstore ▸ hr, fun _ hr => .inl (hstore ▸ hr),
    fun tx r h => (hcommit tx r h).elim, huntouched⟩

theorem moves {q q' : Registrations ι} {i : ι} {m : Mode} {c : Statement}
    {x : Except QueueError (Result c)} (hm : transacting.allows m c)
    (h : Settles E c q.state x q'.state) : Moves ⟨q, ⟨i, c, x⟩, q'⟩ q.state q'.state := by
  have hcommit : (∀ tx, c ≠ .commit tx) → ∀ tx r, ¬ Commits ⟨q, ⟨i, c, x⟩, q'⟩ tx r := by
    rintro hc tx r ⟨⟨j, hlabel⟩, -⟩
    exact hc tx (congrArg Step.call hlabel)
  cases c with
  | outside c =>
    obtain ⟨w', hc, hd'⟩ := h
    have hwrite : ¬ DatabaseWrite c := by
      rcases m with _ | ⟨tx, cleared, _ | e⟩
      · exact hm
      · exact hm.elim
      · exact hm.elim
    have hstore : q'.state.world.store = q.state.world.store := by
      rw [hd']
      exact answers_unwritten hwrite hc
    exact moves_same (by rw [hd']) hstore (hcommit nofun) fun tx _ _ => by rw [hd']
  | beginTransaction =>
    obtain ⟨now, -, ⟨-, hd'⟩ | ⟨-, hd'⟩⟩ := h
    · refine moves_same (by rw [hd']; exact Nat.le_succ _) (by rw [hd']; rfl) (hcommit nofun)
        fun tx htx _ => ?_
      rw [hd']
      exact Function.update_of_ne (Nat.ne_of_lt htx) _ _
    · exact moves_same (by rw [hd']; exact Nat.le_refl _) (by rw [hd']; rfl) (hcommit nofun)
        fun tx _ _ => by rw [hd']; rfl
  | within tx query =>
    obtain ⟨now, -, ⟨t, ht, o, t', -, -, hd'⟩ | ⟨-, hd'⟩⟩ := h <;>
      refine moves_same (by rw [hd']; exact Nat.le_refl _) (by rw [hd']; rfl) (hcommit nofun)
        fun tx' _ hother => ?_ <;> rw [hd'] <;>
      exact Function.update_of_ne (Ne.symm hother) _ _
  | rollback tx =>
    obtain ⟨now, -, -, hd'⟩ := h
    refine moves_same (by rw [hd']; exact Nat.le_refl _) (by rw [hd']; rfl) (hcommit nofun)
      fun tx' _ hother => ?_
    rw [hd']
    exact Function.update_of_ne (Ne.symm hother) _ _
  | commit tx =>
    obtain ⟨now, -, ⟨t, ht, hkey, rfl, hd'⟩ | ⟨rfl, hd'⟩⟩ := h
    · have hentries : q'.state.world.store.entries = q.state.world.store.entries ++ t.entries := by
        rw [hd']
        rfl
      refine ⟨by rw [hd']; exact Nat.le_refl _, fun r hr => ?_, fun r hr => ?_, ?_, fun tx' _ hother => ?_⟩
      · rw [hentries]
        exact List.mem_append_left _ hr
      · rw [hentries] at hr
        exact (List.mem_append.mp hr).imp id fun hr => ⟨tx, ⟨i, rfl⟩, t, ht, hr⟩
      · rintro tx' r ⟨⟨j, hlabel⟩, t', ht', hr⟩
        cases hlabel
        cases (show q.state.transactions tx = some t from ht).symm.trans ht'
        rw [hentries]
        exact List.mem_append_right _ hr
      · rw [hd']
        exact Function.update_of_ne (Ne.symm hother) _ _
    · refine moves_same (by rw [hd']; exact Nat.le_refl _) (by rw [hd']; rfl) ?_ fun tx' _ hother => ?_
      · rintro tx' r ⟨⟨j, hlabel⟩, -⟩
        cases hlabel
      · rw [hd']
        exact Function.update_of_ne (Ne.symm hother) _ _

variable {tr : Course ι} {d d' : Database} {m : Mode} {q q' : Registrations ι}
  {step : Transition (Registrations ι) (Step ι Statement Result QueueError)}

theorem lookedUp_snoc {tx : TransactionId} {filter : Where} (hmoves : Moves step d d')
    (h : LookedUp tr d.world.store tx filter) : LookedUp (tr ++ [step]) d'.world.store tx filter := by
  obtain ⟨pre, look, mid, rfl, hlook, hsince⟩ := h
  refine ⟨pre, look, mid ++ [step], by simp, hlook, fun r hr hmatch => ?_⟩
  obtain hr | ⟨tx', hcommit⟩ := hmoves.added r hr
  · obtain ⟨c, hc, hcommit⟩ := hsince r hr hmatch
    exact ⟨c, List.mem_append_left _ hc, hcommit⟩
  · exact ⟨step, by simp, tx', hcommit⟩

theorem holds_snoc (hmoves : Moves step d d')
    (hother : ∀ tx, InTransaction tx m → ¬ Touches tx step.label.call) (h : Holds tr d m) :
    Holds (tr ++ [step]) d' m := by
  cases m with
  | outside => trivial
  | within tx cleared ticket =>
    obtain ⟨hstarted, hrows, hticket, hlooked⟩ := h
    refine ⟨Nat.lt_of_lt_of_le hstarted hmoves.started, ?_, hticket,
      fun filter hf => lookedUp_snoc hmoves (hlooked filter hf)⟩
    rw [hmoves.untouched tx hstarted (hother tx ⟨_, _, rfl⟩)]
    exact hrows

/-- A transaction that has just been settled on by its own session. -/
theorem holds_within {tx : TransactionId} {cleared : List Where} {ticket o : Option QueueEntry}
    (hmoves : Moves step d d') (h : Holds tr d (.within tx cleared ticket))
    (hrows : ∀ t ∈ d'.transactions tx, t.entries = o.toList)
    (hticket : ∀ e ∈ o, ∀ filter : Where, filter.Matches e → filter ∈ cleared) :
    Holds (tr ++ [step]) d' (.within tx cleared o) :=
  ⟨Nat.lt_of_lt_of_le h.1 hmoves.started, hrows, hticket,
    fun filter hf => lookedUp_snoc hmoves (h.2.2.2 filter hf)⟩

theorem holds_findFirst {tx : TransactionId} {cleared : List Where} {filter : Where} {i : ι}
    {x : Except QueueError (Option QueueEntry)}
    (hmoves : Moves ⟨q, ⟨i, .within tx (.findFirst filter), x⟩, q'⟩ q.state q'.state)
    (hs : Settles E (.within tx (.findFirst filter)) q.state x q'.state)
    (h : Holds tr q.state (.within tx cleared none)) :
    Holds (tr ++ [⟨q, ⟨i, .within tx (.findFirst filter), x⟩, q'⟩]) q'.state
      (transacting.next (.within tx cleared none) (.within tx (.findFirst filter)) x) := by
  obtain ⟨hstore, ⟨now, t, ht, o, t', ⟨-, hnone, rfl⟩, rfl, hd'⟩ | ⟨rfl, hd'⟩⟩ := settles_within hs
  · have hsame := holds_within (o := none) hmoves h
      (fun _ ht' => by cases hd'.symm.trans ht'; exact h.2.1 _ ht) (by simp)
    cases o with
    | some r => exact hsame
    | none =>
      refine ⟨hsame.1, hsame.2.1, by simp, fun f hf => ?_⟩
      obtain rfl | hf := List.mem_cons.mp hf
      · refine ⟨tr, _, [], rfl, ⟨i, rfl⟩, fun r hr hmatch => ?_⟩
        rw [hstore] at hr
        exact (hnone rfl r (List.mem_append_left _ hr) hmatch).elim
      · exact hsame.2.2.2 f hf
  · exact holds_within (o := none) hmoves h (by simp [hd']) (by simp)

theorem holds_create {tx : TransactionId} {cleared : List Where} {e : QueueEntry} {i : ι}
    {x : Except QueueError QueueEntry}
    (hmoves : Moves ⟨q, ⟨i, .within tx (.create e), x⟩, q'⟩ q.state q'.state)
    (hs : Settles E (.within tx (.create e)) q.state x q'.state)
    (hlookups : ∀ filter : Where, filter.Matches e → filter ∈ cleared)
    (h : Holds tr q.state (.within tx cleared none)) :
    Holds (tr ++ [⟨q, ⟨i, .within tx (.create e), x⟩, q'⟩]) q'.state
      (transacting.next (.within tx cleared none) (.within tx (.create e)) x) := by
  obtain ⟨hstore, ⟨now, t, ht, o, t', ⟨-, -, rfl⟩, rfl, hd'⟩ | ⟨rfl, hd'⟩⟩ := settles_within hs
  · refine holds_within (o := some e) hmoves h (fun t' ht' => ?_) ?_
    · cases hd'.symm.trans ht'
      change t.entries ++ [e] = [e]
      rw [h.2.1 t ht]
      rfl
    · rintro _ ⟨⟩
      exact hlookups
  · exact holds_within (o := none) hmoves h (by simp [hd']) (by simp)

theorem holds_createHistory {tx : TransactionId} {cleared : List Where} {e : QueueEntry} {i : ι}
    {queueEntryId : Uuid} {previousStatus : Option QueueStatus} {currentStatus : QueueStatus}
    {changedBy : Option String} {x : Except QueueError Unit}
    (hmoves : Moves ⟨q, ⟨i, .within tx (.createHistory queueEntryId previousStatus currentStatus
      changedBy), x⟩, q'⟩ q.state q'.state)
    (hs : Settles E (.within tx (.createHistory queueEntryId previousStatus currentStatus changedBy))
      q.state x q'.state)
    (h : Holds tr q.state (.within tx cleared (some e))) :
    Holds (tr ++ [⟨q, ⟨i, .within tx (.createHistory queueEntryId previousStatus currentStatus
      changedBy), x⟩, q'⟩]) q'.state (.within tx cleared (some e)) := by
  refine holds_within hmoves h (fun t' ht' => ?_) h.2.2.1
  obtain ⟨hstore, ⟨now, t, ht, o, t', hruns, rfl, hd'⟩ | ⟨rfl, hd'⟩⟩ := settles_within hs
  · cases hd'.symm.trans ht'
    rw [show t' = _ from hruns]
    exact h.2.1 t ht
  · cases hd'.symm.trans ht'

theorem holds_begin {i : ι} {x : Except QueueError TransactionId}
    (hs : Settles E .beginTransaction q.state x q'.state) :
    Holds (tr ++ [⟨q, ⟨i, .beginTransaction, x⟩, q'⟩]) q'.state
      (transacting.next .outside .beginTransaction x) := by
  obtain ⟨now, -, ⟨rfl, hd'⟩ | ⟨rfl, hd'⟩⟩ := hs
  · rw [hd']
    refine ⟨Nat.lt_succ_self _, fun t ht => ?_, by simp, by simp⟩
    cases (Function.update_self _ _ _).symm.trans ht
    rfl
  · trivial

theorem inTransaction_within {tx tx' : TransactionId} {cleared : List Where} {ticket : Option QueueEntry} :
    InTransaction tx (.within tx' cleared ticket) ↔ tx = tx' := by
  constructor
  · rintro ⟨_, _, ⟨⟩⟩
    rfl
  · rintro rfl
    exact ⟨_, _, rfl⟩

theorem not_inTransaction_outside {tx : TransactionId} : ¬ InTransaction tx .outside := by
  rintro ⟨_, _, ⟨⟩⟩

/-- A session changes its transaction only by beginning one. -/
theorem inTransaction_next {c : Statement} {x : Except QueueError (Result c)} {tx : TransactionId}
    (hm : transacting.allows m c) (hs : Settles E c d x d')
    (h : InTransaction tx (transacting.next m c x)) : InTransaction tx m ∨ tx = d.started := by
  cases c with
  | outside c =>
    rcases m with _ | ⟨tx', cleared, _ | e⟩ <;> exact .inl h
  | beginTransaction =>
    rcases m with _ | ⟨tx', cleared, _ | e⟩
    · obtain ⟨now, -, ⟨rfl, -⟩ | ⟨rfl, -⟩⟩ := hs
      · exact .inr (inTransaction_within.mp h)
      · exact .inl h
    · exact hm.elim
    · exact hm.elim
  | commit | rollback =>
    rcases m with _ | ⟨tx', cleared, _ | e⟩ <;>
      first | exact hm.elim | exact (not_inTransaction_outside h).elim
  | within tx' query =>
    rcases m with _ | ⟨tx', cleared, _ | e⟩
    · exact hm.elim
    · cases query with
      | findFirst =>
        rcases x with _ | _ | r <;> exact .inl (inTransaction_within.mpr (inTransaction_within.mp h))
      | create => cases x <;> exact .inl (inTransaction_within.mpr (inTransaction_within.mp h))
      | createHistory => exact hm.elim
    · exact .inl h

theorem holds_next {c : Statement} {x : Except QueueError (Result c)} {i : ι}
    (hm : transacting.allows m c) (hs : Settles E c q.state x q'.state) (h : Holds tr q.state m) :
    Holds (tr ++ [⟨q, ⟨i, c, x⟩, q'⟩]) q'.state (transacting.next m c x) := by
  have hmoves := moves (i := i) hm hs
  cases c with
  | outside c =>
    rcases m with _ | ⟨tx, cleared, _ | e⟩
    · trivial
    · exact hm.elim
    · exact hm.elim
  | beginTransaction =>
    rcases m with _ | ⟨tx, cleared, _ | e⟩
    · exact holds_begin hs
    · exact hm.elim
    · exact hm.elim
  | commit tx' =>
    rcases m with _ | ⟨tx, cleared, _ | e⟩
    · exact hm.elim
    · exact hm.elim
    · trivial
  | rollback tx' =>
    rcases m with _ | ⟨tx, cleared, _ | e⟩
    · exact hm.elim
    · trivial
    · trivial
  | within tx' query =>
    rcases m with _ | ⟨tx, cleared, _ | e⟩
    · exact hm.elim
    · cases query with
      | findFirst filter =>
        cases hm
        exact holds_findFirst hmoves hs h
      | create e =>
        obtain ⟨rfl, hlookups⟩ := hm
        exact holds_create hmoves hs hlookups h
      | createHistory => exact hm.elim
    · cases query with
      | findFirst | create => exact hm.elim
      | createHistory =>
        cases hm
        exact holds_createHistory hmoves hs h

theorem holds_started {tx : TransactionId} (h : Holds tr d m) (hm : InTransaction tx m) :
    tx < d.started := by
  obtain ⟨cleared, ticket, rfl⟩ := hm
  exact h.1

/-- Over a whole run every session stays in its mode, and its look-ups stay true
up to what others commit. -/
theorem tracked_run [DecidableEq ι] {inputs : ι → RegisterQueueInput} {w : World}
    (hrun : Run (Interleaves (Settles E)) (registering inputs w) tr q) :
    ∃ modes, (∀ i, Follows transacting (fun m _ => m = .outside) (modes i) (q.bodies i)) ∧
      Tracked tr modes q.state := by
  refine interleaves_follows (J := Tracked) (G := fun _ => True) (m := fun _ => .outside)
    (follows_registering inputs w) ⟨fun _ => trivial, ?_, by simp⟩ ?_ hrun fun _ _ => trivial
  · intro i j tx hi
    exact (not_inTransaction_outside hi).elim
  rintro tr modes q i c x q' hm ⟨hholds, hapart, hstays⟩ hs -
  have hmoves := moves (i := i) hm hs
  refine ⟨trivial, fun j => ?_, fun j k tx hj hk => ?_, fun step hstep tx e hcommit => ?_⟩
  · obtain rfl | hj := eq_or_ne j i
    · rw [Function.update_self]
      exact holds_next hm hs (hholds j)
    · rw [Function.update_of_ne hj]
      refine holds_snoc hmoves (fun tx hin htouch => ?_) (hholds j)
      exact hj (hapart j i tx hin (touches_inTransaction hm htouch))
  · have hmine : ∀ l, l ≠ i → InTransaction tx (modes l) →
        ¬ InTransaction tx (transacting.next (modes i) c x) := by
      intro l hl hin hnext
      obtain hin' | rfl := inTransaction_next hm hs hnext
      · exact hl (hapart l i tx hin hin')
      · exact Nat.lt_irrefl _ (holds_started (hholds l) hin)
    obtain hji | hji := eq_or_ne j i <;> obtain hki | hki := eq_or_ne k i
    · exact hji.trans hki.symm
    · rw [hji, Function.update_self] at hj
      rw [Function.update_of_ne hki] at hk
      exact (hmine k hki hk hj).elim
    · rw [Function.update_of_ne hji] at hj
      rw [hki, Function.update_self] at hk
      exact (hmine j hji hj hk).elim
    · rw [Function.update_of_ne hji] at hj
      rw [Function.update_of_ne hki] at hk
      exact hapart j k tx hj hk
  · obtain hstep | rfl := List.mem_append.mp hstep |>.imp_right List.mem_singleton.mp
    · exact hmoves.kept e (hstays step hstep tx e hcommit)
    · exact hmoves.committed tx e hcommit

/-- What a commit that goes through adds to the store: one ticket, which every
look-up of its transaction had cleared. -/
theorem commit_step [DecidableEq ι] {inputs : ι → RegisterQueueInput} {w : World} {tx : TransactionId}
    {e : QueueEntry} (hrun : Run (Interleaves (Settles E)) (registering inputs w) tr step.before)
    (hstep : Interleaves (Settles E) step.before step.label step.after) (hcommit : Commits step tx e) :
    (∀ r, r ∈ step.after.state.world.store.entries ↔
      r ∈ step.before.state.world.store.entries ∨ r = e) ∧
      e ∉ step.before.state.world.store.entries ∧
      (∀ filter : Where, filter.Matches e → LookedUp tr step.before.state.world.store tx filter) := by
  obtain ⟨modes, hfollows, htracked⟩ := tracked_run hrun
  obtain ⟨q, l, q'⟩ := step
  obtain ⟨⟨i, hlabel⟩, t, ht, he⟩ := hcommit
  cases show l = _ from hlabel
  change Interleaves (Settles E) q ⟨i, .commit tx, .ok ()⟩ q' at hstep
  obtain ⟨_, hi, hs⟩ := hstep
  rename_i d' k
  have hm := hfollows i
  rw [show q.bodies i = _ from hi] at hm
  have hallow := hm.1
  have hholds := htracked.holds i
  generalize modes i = m at hallow hholds
  obtain _ | ⟨tx', cleared, _ | e'⟩ := m
  · exact hallow.elim
  · exact hallow.elim
  cases show tx = tx' from hallow
  obtain ⟨-, hrows, hlookups, hlooked⟩ := hholds
  have hentries : t.entries = [e'] := hrows t ht
  rw [hentries, List.mem_singleton] at he
  cases he
  obtain ⟨now, -, ⟨t', ht', hkey, -, hd'⟩ | ⟨hx, -⟩⟩ := hs
  · cases (show q.state.transactions tx = some t from ht).symm.trans ht'
    have hstore : d'.world.store.entries = q.state.world.store.entries ++ [e] := by
      rw [← hentries, hd']
      rfl
    refine ⟨fun r => ?_, fun hmem => ?_, fun filter hmatch => hlooked filter (hlookups e rfl filter hmatch)⟩
    · change r ∈ d'.world.store.entries ↔ _
      rw [hstore, List.mem_append, List.mem_singleton]
    · rw [List.map_append, hentries] at hkey
      exact (List.disjoint_of_nodup_append hkey) (List.mem_map_of_mem hmem) (by simp)
  · cases hx

/-- Every other statement leaves the tickets as they are. -/
theorem other_step [DecidableEq ι] {inputs : ι → RegisterQueueInput} {w : World}
    (hrun : Run (Interleaves (Settles E)) (registering inputs w) tr step.before)
    (hstep : Interleaves (Settles E) step.before step.label step.after)
    (hcommit : ∀ tx e, ¬ Commits step tx e) (r : QueueEntry) :
    r ∈ step.after.state.world.store.entries ↔ r ∈ step.before.state.world.store.entries := by
  obtain ⟨modes, hfollows, -⟩ := tracked_run hrun
  have hmoves : Moves step step.before.state step.after.state := by
    obtain ⟨q, ⟨i, c, x⟩, q'⟩ := step
    change Interleaves (Settles E) q ⟨i, c, x⟩ q' at hstep
    obtain ⟨_, hi, hs⟩ := hstep
    have hm := hfollows i
    rw [show q.bodies i = _ from hi] at hm
    exact moves hm.1 hs
  refine ⟨fun hr => (hmoves.added r hr).resolve_right ?_, hmoves.kept r⟩
  rintro ⟨tx, h⟩
  exact hcommit tx r h

theorem unique_congr {s s' : Store} (h : ∀ r, r ∈ s'.entries ↔ r ∈ s.entries) :
    NoDuplicates s' ↔ NoDuplicates s := by
  simp only [noDuplicates_iff, h]

/-- A commit makes a duplicate just if its ticket has been overtaken. -/
theorem commit_duplicates [DecidableEq ι] {inputs : ι → RegisterQueueInput} {w : World}
    {tx : TransactionId} {e : QueueEntry}
    (hrun : Run (Interleaves (Settles E)) (registering inputs w) tr step.before)
    (hstep : Interleaves (Settles E) step.before step.label step.after) (hcommit : Commits step tx e)
    (hbefore : NoDuplicates step.before.state.world.store) :
    NoDuplicates step.after.state.world.store ↔ ¬ Overtaken tr tx e := by
  obtain ⟨hentries, hnew, hlooked⟩ := commit_step hrun hstep hcommit
  obtain ⟨modes, -, htracked⟩ := tracked_run hrun
  rw [noDuplicates_iff] at hbefore ⊢
  constructor
  · rintro hunique ⟨filter, hmatch, pre, look, mid, rfl, -, c, hc, tx', r, hcommit', hr⟩
    have hmem := htracked.stays c (by simp [hc]) tx' r hcommit'
    have heq := hunique filter r ((hentries r).mpr (.inl hmem)) e ((hentries e).mpr (.inr rfl)) hr hmatch
    exact hnew (heq ▸ hmem)
  · intro hclear
    have hother : ∀ filter : Where, filter.Matches e →
        ∀ r ∈ step.before.state.world.store.entries, ¬ filter.Matches r := by
      intro filter hmatch r hr hr'
      obtain ⟨pre, look, mid, rfl, hlook, hsince⟩ := hlooked filter hmatch
      obtain ⟨c, hc, tx', hcommit'⟩ := hsince r hr hr'
      exact hclear ⟨filter, hmatch, pre, look, mid, rfl, hlook, c, hc, tx', r, hcommit', hr'⟩
    intro filter a ha b hb hma hmb
    obtain ha | rfl := (hentries a).mp ha <;> obtain hb | rfl := (hentries b).mp hb
    · exact hbefore filter a ha b hb hma hmb
    · exact (hother filter hmb a ha hma).elim
    · exact (hother filter hma b hb hmb).elim
    · rfl

theorem unovertaken_snoc {tr : Course ι} : Unovertaken (tr ++ [step]) ↔
    Unovertaken tr ∧ ∀ tx e, Commits step tx e → ¬ Overtaken tr tx e := by
  constructor
  · intro h
    refine ⟨fun pre c post htr => h pre c (post ++ [step]) (by simp [htr]), fun tx e => ?_⟩
    exact h tr step [] rfl tx e
  · rintro ⟨hold, hlast⟩ pre c post htr
    obtain rfl | ⟨post, d, rfl⟩ := List.eq_nil_or_concat post
    · obtain ⟨rfl, hc⟩ := List.append_inj' htr rfl
      obtain rfl := List.singleton_inj.mp hc
      exact hlast
    · rw [List.concat_eq_append, ← List.cons_append, ← List.append_assoc] at htr
      exact hold pre c post (List.append_inj' htr rfl).1

/-- The store never holds two tickets for one guest if no registration commits a
ticket that another has overtaken since its re-check, and only then. -/
theorem no_duplicates_iff [DecidableEq ι] (E : Env) (inputs : ι → RegisterQueueInput) (w : World)
    (tr : Course ι) (q : Registrations ι) (hstart : NoDuplicates w.store)
    (hrun : Run (Interleaves (Settles E)) (registering inputs w) tr q) :
    (∀ step ∈ tr, NoDuplicates step.after.state.world.store) ↔ Unovertaken tr := by
  induction hrun with
  | nil => exact iff_of_true (by simp) fun pre step post htr => by simp at htr
  | @snoc tr p q l hrun hstep ih =>
    have hstate : (∀ step ∈ tr, NoDuplicates step.after.state.world.store) →
        NoDuplicates p.state.world.store := by
      intro h
      cases hrun with
      | nil => exact hstart
      | @snoc tr o p l _ _ => exact h ⟨o, l, p⟩ (by simp)
    rw [unovertaken_snoc, ← ih, List.forall_mem_append, List.forall_mem_singleton]
    apply and_congr_right
    intro hall
    have hbefore := hstate hall
    by_cases hcommit : ∃ tx e, Commits ⟨p, l, q⟩ tx e
    · refine ⟨fun h tx e hc => (commit_duplicates hrun hstep hc hbefore).mp h, fun h => ?_⟩
      obtain ⟨tx, e, hc⟩ := hcommit
      exact (commit_duplicates hrun hstep hc hbefore).mpr (h tx e hc)
    · simp only [not_exists] at hcommit
      refine iff_of_true ?_ fun tx e hc => (hcommit tx e hc).elim
      exact (unique_congr (other_step hrun hstep hcommit)).mpr hbefore

def answerQuery (tx : TransactionId) (d : Database) :
    (query : Query) → Except QueueError query.Result × Database
  | .findFirst filter => match d.transactions tx with
    | some t => (.ok ((d.visible t).find? filter.Matches), d.write tx t)
    | none => (.error .dependency, d.close tx)
  | .create data => match d.transactions tx with
    | some t =>
      if d.Fresh data.id then (.ok data, d.write tx { t with entries := t.entries ++ [data] })
      else (.error .dependency, d.close tx)
    | none => (.error .dependency, d.close tx)
  | .createHistory queueEntryId previousStatus currentStatus changedBy =>
    match d.transactions tx with
    | some t => (.ok (), d.write tx { t with history := t.history ++
        [⟨queueEntryId, previousStatus, currentStatus, changedBy, none, none, d.world.clock⟩] })
    | none => (.error .dependency, d.close tx)

theorem answerQuery_settled (tx : TransactionId) (d : Database) (query : Query) :
    Settled (.within tx query) d (answerQuery tx d query).1 (answerQuery tx d query).2 := by
  cases query with
  | findFirst filter =>
    rw [answerQuery]
    split
    · rename_i t ht
      refine .inl ⟨t, ht, _, t, ⟨fun e he => ?_, fun hnone => ?_, rfl⟩, rfl, rfl⟩
      · exact ⟨List.mem_of_find?_eq_some he, by simpa using List.find?_some he⟩
      · simpa using hnone
    · exact .inr ⟨rfl, rfl⟩
  | create data =>
    cases ht : d.transactions tx with
    | none =>
      simp only [answerQuery, ht]
      exact .inr ⟨rfl, rfl⟩
    | some t =>
      by_cases hfresh : d.Fresh data.id
      · simp only [answerQuery, ht, if_pos hfresh]
        exact .inl ⟨t, ht, data, _, ⟨hfresh, rfl, rfl⟩, rfl, rfl⟩
      · simp only [answerQuery, ht, if_neg hfresh]
        exact .inr ⟨rfl, rfl⟩
  | createHistory =>
    rw [answerQuery]
    split
    · rename_i t ht
      exact .inl ⟨t, ht, (), _, rfl, rfl, rfl⟩
    · exact .inr ⟨rfl, rfl⟩

def answerCommit (tx : TransactionId) (d : Database) : Except QueueError Unit × Database :=
  match d.transactions tx with
  | some t =>
    if h : ((d.world.store.entries ++ t.entries).map (·.id)).Nodup then
      (.ok (), { d.close tx with world := d.world.commit (Store.append d.world.store t h) })
    else (.error .dependency, d.close tx)
  | none => (.error .dependency, d.close tx)

theorem answerCommit_settled (tx : TransactionId) (d : Database) :
    Settled (.commit tx) d (answerCommit tx d).1 (answerCommit tx d).2 := by
  rw [answerCommit]
  split
  · rename_i t ht
    split
    · exact .inl ⟨t, ht, _, rfl, rfl⟩
    · exact .inr ⟨rfl, rfl⟩
  · exact .inr ⟨rfl, rfl⟩

/-- Statements answered in one way: the interpreter of closed examples. -/
def answerStatement (script : Script) : (c : Statement) → Database → Except QueueError (Result c) × Database
  | .outside c, d => ((script.reply c d.world).1, { d with world := (script.reply c d.world).2 })
  | .beginTransaction, d => (.ok d.started, (d.at (d.world.clock + 1)).begin)
  | .within tx query, d => answerQuery tx (d.at (d.world.clock + 1)) query
  | .commit tx, d => answerCommit tx (d.at (d.world.clock + 1))
  | .rollback tx, d => (.ok (), (d.at (d.world.clock + 1)).close tx)

theorem answerStatement_settles (script : Script) (c : Statement) (d : Database) :
    Settles script.env c d (answerStatement script c d).1 (answerStatement script c d).2 := by
  cases c with
  | outside c => exact ⟨_, script.reply_answers c d.world, rfl⟩
  | beginTransaction => exact ⟨_, rfl, .inl ⟨rfl, rfl⟩⟩
  | rollback tx => exact ⟨_, rfl, .inl rfl, rfl⟩
  | commit tx => exact ⟨_, rfl, answerCommit_settled tx _⟩
  | within tx query => exact ⟨_, rfl, answerQuery_settled tx _ query⟩

/-- The same guest registers twice at the same time. -/
def twice (_ : Bool) : RegisterQueueInput :=
  ⟨"r", none, some "staff", "Guest", "1", 2, none, none, none, nobody, someStaff⟩

def byTurns : List Bool := (List.range 30).map fun k => k % 2 == 0

abbrev course (turns : List Bool) : Course Bool × Registrations Bool :=
  interleave (answerStatement smooth) (registering twice (.empty 0)) turns

/-- One registration completes before the other starts. -/
theorem inTurn_unovertaken : Unovertaken (course (List.replicate 15 true ++ List.replicate 3 false)).1 :=
  (no_duplicates_iff smooth.env twice (.empty 0) _ _ (by decide)
    (interleave_run (answerStatement_settles smooth) _ _)).mp (by decide +kernel)

/-- Both look for a ticket before either has committed one. -/
theorem twice_duplicates :
    ¬ ∀ (ι : Type) [DecidableEq ι] (E : Env) (inputs : ι → RegisterQueueInput) (w : World)
      (tr : Course ι) (q : Registrations ι), NoDuplicates w.store →
      Run (Interleaves (Settles E)) (registering inputs w) tr q →
      NoDuplicates q.state.world.store := by
  intro h
  have hunique := h Bool smooth.env twice (.empty 0) _ _ (by decide)
    (interleave_run (answerStatement_settles smooth) _ byTurns)
  exact absurd hunique (by decide +kernel)

end SpotQueue.DuplicateTickets
