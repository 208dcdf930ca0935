import SpotQueue.SequentialRun
import SpotQueue.Simulation

namespace SpotQueue.DailyNumbers

open SpotQueue.Entity SpotQueue.Repository SpotQueue.Environment SpotQueue.UseCases SpotQueue.Frame
open SpotQueue.Guards SpotQueue.Line SpotQueue.Seating SpotQueue.Registration SpotQueue.StoreChanges
open SpotQueue.RowChanges SpotQueue.SequentialRun SpotQueue.Simulation SpotQueue.NumberText
open SpotQueue.Awaits.AsyncProgram SpotQueue.Awaits.LabelledRun

section encoding

variable {s t : RegistrationType} {m n : Nat}

/-- What follows the two characters of the prefix. -/
def sequenceDigits (queueNumber : String) : List Char := queueNumber.toList.drop 2

theorem padThree_digits (n : Nat) : Nat.ofDigitChars 10 (padThree (decimal n)).toList 0 = n := by
  simp [padThree, decimal, Nat.ofDigitChars_append]

theorem padThree_isDigit {c : Char} (h : c ∈ (padThree (decimal n)).toList) : c.isDigit := by
  rw [padThree, String.toList_ofList, List.mem_append] at h
  obtain h | h := h
  · rw [(List.mem_replicate.mp h).2]
    rfl
  · rw [decimal, String.toList_ofList] at h
    exact Nat.isDigit_of_mem_toDigits (by decide) (by decide) h

theorem queuePrefix_length (t : RegistrationType) : (queuePrefix t).toList.length = 2 := by
  cases t <;> rfl

theorem queuePrefix_injective (h : queuePrefix s = queuePrefix t) : s = t := by
  cases s <;> cases t <;> first | rfl | exact absurd h (by decide)

theorem sequenceDigits_counted (t : RegistrationType) (n : Nat) :
    sequenceDigits (countedQueueNumber t n) = (padThree (decimal n)).toList := by
  rw [sequenceDigits, countedQueueNumber, String.toList_append,
    List.drop_left' (queuePrefix_length t)]

theorem sequence_read (t : RegistrationType) (n : Nat) :
    Nat.ofDigitChars 10 (sequenceDigits (countedQueueNumber t n)) 0 = n := by
  rw [sequenceDigits_counted, padThree_digits]

theorem counted_sequence (h : countedQueueNumber s m = countedQueueNumber t n) : m = n := by
  rw [← sequence_read s m, h, sequence_read]

theorem counted_type (h : countedQueueNumber s m = countedQueueNumber t n) : s = t := by
  have hsplit : ∀ t n, (countedQueueNumber t n).toList.take 2 = (queuePrefix t).toList := by
    intro t n
    rw [countedQueueNumber, String.toList_append, List.take_left' (queuePrefix_length t)]
  have hprefix : (queuePrefix s).toList = (queuePrefix t).toList := by
    rw [← hsplit s m, h, hsplit]
  exact queuePrefix_injective (String.toList_injective hprefix)

/-- A queue number names one type and one place in the sequence, and spells the place in
decimal, as long as the language counts exactly. -/
theorem queueNumber_encodes (s t : RegistrationType) (hm : m ≤ MAX_SAFE_INTEGER)
    (hn : n ≤ MAX_SAFE_INTEGER) :
    (generateQueueNumber s m = generateQueueNumber t n ↔ s = t ∧ m = n) ∧
      (∀ c ∈ sequenceDigits (generateQueueNumber s m), c.isDigit) ∧
        Nat.ofDigitChars 10 (sequenceDigits (generateQueueNumber s m)) 0 = m := by
  rw [generateQueueNumber_safe s hm, generateQueueNumber_safe t hn]
  refine ⟨⟨fun h => ⟨counted_type h, counted_sequence h⟩, ?_⟩, fun c hc => ?_, sequence_read s m⟩
  · rintro ⟨rfl, rfl⟩
    rfl
  · rw [sequenceDigits_counted] at hc
    exact padThree_isDigit hc

theorem queueNumber_encodes_thousand :
    (generateQueueNumber .online 999 = generateQueueNumber .online 1000 ↔
        RegistrationType.online = .online ∧ 999 = 1000) ∧
      (∀ c ∈ sequenceDigits (generateQueueNumber .online 999), c.isDigit) ∧
        Nat.ofDigitChars 10 (sequenceDigits (generateQueueNumber .online 999)) 0 = 999 :=
  queueNumber_encodes .online .online (by decide) (by decide)

/-- The double next to `2 ^ 53 + 1` is `2 ^ 53`. -/
theorem queueNumber_collides :
    ¬ ∀ (s t : RegistrationType) (m n : Nat),
      generateQueueNumber s m = generateQueueNumber t n → s = t ∧ m = n := by
  intro h
  have hdouble : toDouble (2 ^ 53) = toDouble (2 ^ 53 + 1) := by decide
  have hcollide : generateQueueNumber .walkIn (2 ^ 53) = generateQueueNumber .walkIn (2 ^ 53 + 1) := by
    rw [generateQueueNumber, numberText, hdouble]
    rfl
  exact absurd (h _ _ _ _ hcollide).2 (by decide)

end encoding

variable {E : Env} {w w' : World} {s s' : Store} {d e x : QueueEntry} {l : List QueueEntry}

/-- Local midnights: each day starts once, and later times are on later days. -/
structure LocalDays (E : Env) : Prop where
  le : ∀ t, E.startOfDay t ≤ t
  mono : ∀ a b, a ≤ b → E.startOfDay a ≤ E.startOfDay b
  start : ∀ t, E.startOfDay (E.startOfDay t) = E.startOfDay t

theorem since_midnight {a t : Time} (hdays : LocalDays E) (hle : a ≤ t) :
    E.startOfDay t ≤ a ↔ E.startOfDay a = E.startOfDay t := by
  constructor
  · intro h
    have hstart := hdays.mono _ _ h
    rw [hdays.start] at hstart
    exact Nat.le_antisymm (hdays.mono _ _ hle) hstart
  · intro h
    exact h ▸ hdays.le a

/-- Two tickets of one restaurant, made on one local day. -/
def SameDay (E : Env) (e d : QueueEntry) : Prop :=
  d.restaurantId = e.restaurantId ∧ E.startOfDay d.createdAt = E.startOfDay e.createdAt

instance (E : Env) (e : QueueEntry) : DecidablePred (SameDay E e) :=
  fun _ => inferInstanceAs (Decidable (_ ∧ _))

/-- Every ticket has the number after those made before it on its day. -/
def Counted (E : Env) (l : List QueueEntry) : Prop :=
  ∀ i e, l[i]? = some e → e.queueNumber =
    countedQueueNumber e.registrationType ((l.take i).countP (SameDay E e) + 1)

theorem counted_append (h : Counted E l)
    (hx : x.queueNumber = countedQueueNumber x.registrationType (l.countP (SameDay E x) + 1)) :
    Counted E (l ++ [x]) := by
  intro i e hi
  by_cases hlt : i < l.length
  · rw [List.getElem?_append_left hlt] at hi
    rw [List.take_append_of_le_length hlt.le]
    exact h i e hi
  · rw [List.getElem?_append_right (Nat.le_of_not_lt hlt)] at hi
    obtain ⟨hzero, rfl⟩ : i - l.length = 0 ∧ x = e := by
      simpa [List.getElem?_singleton] using hi
    have heq : i = l.length := by omega
    rw [heq, List.take_left]
    exact hx

/-- The columns a ticket is numbered by, and its number. -/
def SameNumber (e d : QueueEntry) : Prop :=
  d.restaurantId = e.restaurantId ∧ d.registrationType = e.registrationType ∧
    d.createdAt = e.createdAt ∧ d.queueNumber = e.queueNumber

theorem counted_map {f : QueueEntry → QueueEntry} (hf : ∀ e ∈ l, SameNumber e (f e))
    (h : Counted E l) : Counted E (l.map f) := by
  intro i d hi
  rw [List.getElem?_map, Option.map_eq_some_iff] at hi
  obtain ⟨e, hi, rfl⟩ := hi
  obtain ⟨hr, htype, hcreated, hnumber⟩ := hf e (List.mem_of_getElem? hi)
  have hcount : ((l.map f).take i).countP (SameDay E (f e)) = (l.take i).countP (SameDay E e) := by
    rw [← List.map_take, List.countP_map]
    apply List.countP_congr
    intro c hc
    obtain ⟨hcr, -, hccreated, -⟩ := hf c (List.mem_of_mem_take hc)
    rw [Function.comp_apply, decide_eq_true_iff, decide_eq_true_iff, SameDay, SameDay, hr, hcreated,
      hcr, hccreated]
  rw [hcount, htype, hnumber]
  exact h i e hi

theorem counted_lt {i j : Nat} {a b : QueueEntry} (hi : l[i]? = some a) (hij : i < j)
    (hday : SameDay E b a) :
    (l.take i).countP (SameDay E a) < (l.take j).countP (SameDay E b) := by
  have hsame : (l.take i).countP (SameDay E a) = (l.take i).countP (SameDay E b) := by
    apply List.countP_congr
    intro c _
    rw [decide_eq_true_iff, decide_eq_true_iff, SameDay, SameDay, hday.1, hday.2]
  have hnext : (l.take (i + 1)).countP (SameDay E b) = (l.take i).countP (SameDay E b) + 1 := by
    rw [List.take_add_one, hi, List.countP_append]
    simp [hday]
  have hmono : (l.take (i + 1)).countP (SameDay E b) ≤ (l.take j).countP (SameDay E b) :=
    (List.take_sublist_take_left hij).countP_le
  omega

/-- No two tickets of a restaurant and a type that were made on one local day have one number. -/
def NumbersUnique (E : Env) (s : Store) : Prop :=
  ∀ a ∈ s.entries, ∀ b ∈ s.entries, a.id ≠ b.id → a.registrationType = b.registrationType →
    SameDay E a b → a.queueNumber ≠ b.queueNumber

theorem numbersUnique_of_counted (h : Counted E s.entries) : NumbersUnique E s := by
  intro a ha b hb hid htype hday hnumber
  obtain ⟨i, hi⟩ := List.mem_iff_getElem?.mp ha
  obtain ⟨j, hj⟩ := List.mem_iff_getElem?.mp hb
  have hsame := h i a hi
  rw [hnumber, h j b hj, htype] at hsame
  have hcount := counted_sequence hsame
  obtain hij | rfl | hij := Nat.lt_trichotomy i j
  · have hlt := counted_lt hi hij ⟨hday.1.symm, hday.2.symm⟩
    omega
  · exact hid (congrArg (·.id) (Option.some.inj (hi.symm.trans hj)))
  · have hlt := counted_lt hj hij hday
    omega

def createdSince (r : Uuid) (midnight : Time) (s : Store) : Nat :=
  s.entries.countP fun e => e.restaurantId = r ∧ midnight ≤ e.createdAt

/-- The tickets counted since midnight are still those of the day when the ticket is made. -/
def CountedToday (E : Env) (step : Transition World Executed) : Prop :=
  ∀ u r metrics u' v e changedBy d v',
    ⟨u, .getRegistrationMetrics r, .ok metrics, u'⟩ ∈ step.label.calls →
    ⟨v, .createWithHistory e changedBy, .ok d, v'⟩ ∈ step.label.calls →
    createdSince (.ofText r) (E.startOfDay u'.clock) step.before.store =
      createdSince (.ofText r) (E.startOfDay e.createdAt) step.before.store

theorem countP_sameDay {now : Time} (hdays : LocalDays E) (hdated : ∀ d ∈ s.entries, d.createdAt ≤ now)
    (hnow : e.createdAt = now) :
    s.entries.countP (SameDay E e) = createdSince e.restaurantId (E.startOfDay now) s := by
  apply List.countP_congr
  intro d hd
  simp only [decide_eq_true_eq, SameDay, hnow, since_midnight hdays (hdated d hd)]

/-- Tickets are numbered by their day, and none is from the future. -/
structure Sound (E : Env) (w : World) : Prop where
  dated : ∀ e ∈ w.store.entries, e.createdAt ≤ w.clock
  counted : Counted E w.store.entries

theorem rowChange_number {D : Time → Prop} (h : RowChange D e d) : SameNumber e d := by
  cases h with
  | kept => exact ⟨rfl, rfl, rfl, rfl⟩
  | moved _ hd => rw [hd]; exact ⟨rfl, rfl, rfl, rfl⟩
  | left _ hd => cases hd <;> exact ⟨rfl, rfl, rfl, rfl⟩

theorem sound_changes {op : Operation} {D : Time → Prop} (h : Changes E op D s s') {t : Time}
    (hdated : ∀ e ∈ s.entries, e.createdAt ≤ t) (hcounted : Counted E s.entries) :
    (∀ e ∈ s'.entries, e.createdAt ≤ t) ∧ Counted E s'.entries := by
  induction h with
  | refl => exact ⟨hdated, hcounted⟩
  | tail _ hlast ih =>
    obtain ⟨f, hentries, hrow⟩ := change_rows hlast
    have hsame := fun e he => rowChange_number (hrow e he).1
    rw [hentries]
    refine ⟨fun d hd => ?_, counted_map hsame ih.2⟩
    obtain ⟨e, he, rfl⟩ := List.mem_map.mp hd
    rw [(hsame e he).2.2.1]
    exact ih.1 e he

theorem admission_still {pre post : Calls} {input : RegisterQueueInput} {w₀ : World}
    {r : Except QueueError RegisterQueueOutput} {ev : Event Call Answer QueueError World}
    (hpre : ∀ d ∈ pre, Admission d.call)
    (h : Traces E.Answers (registerQueue input) w₀ (pre ++ ev :: post) r w') :
    Still E w₀ ev.before ∧ E.Answers ev.call ev.before ev.answer ev.after :=
  traces_event still_refl still_trans
    (fun d hd hanswer => answers_still (admission_reads (hpre d hd)) hanswer) h

/-- A registration whose count is one of today numbers its ticket in turn. -/
theorem registered_sound {input : RegisterQueueInput} {x : Except QueueError RegisterQueueOutput}
    {calls : Calls} {u : World} {t : Time} {result : Except QueueError Outcome}
    (hdays : LocalDays E) (htick : ∀ a b, E.tick a b → a ≤ b) (hpause : w.clock ≤ t)
    (hsound : Sound E w)
    (htoday : CountedToday E ⟨w, ⟨.register input, calls, result⟩, World.respond u result⟩)
    (h : Traces E.Answers (registerQueue input) (w.at t) calls x u) : Sound E u := by
  have hout := registerQueue_executes h
  have hlater : t ≤ u.clock := later_le htick (executes_later ⟨_, h⟩)
  have hdated : ∀ e ∈ w.store.entries, e.createdAt ≤ t := fun e he => (hsound.dated e he).trans hpause
  cases hout with
  | refused hstill =>
    have hstore : u.store = w.store := hstill.store
    exact ⟨fun e he => (hdated e (hstore ▸ he)).trans hlater, hstore ▸ hsound.counted⟩
  | @registered pre post day now minutes id metrics e u₁ u₂ _ _ u₅ v _ hpre hmetrics heta he hnow hfresh
      hphone huser hv hrest =>
    have hstore : u.store.entries = w.store.entries ++ [e] := by
      rw [(announce_calm ⟨_, hrest⟩).store, hv.store]
      rfl
    have hclock : now ≤ u.clock :=
      (later_le htick hnow.2).trans (later_le htick (executes_later ⟨_, hrest⟩))
    have hcreated : e.createdAt = now := he ▸ rfl
    have hr : e.restaurantId = .ofText input.restaurantId := he ▸ rfl
    have hafter : ∀ d ∈ w.store.entries, d.createdAt ≤ now := fun d hd =>
      (hdated d hd).trans (later_le htick hnow.1)
    have hcount : metrics.countToday = w.store.entries.countP (SameDay E e) := by
      obtain ⟨hstill, hanswer⟩ := admission_still hpre h
      obtain ⟨t', -, hmetrics', hu₂⟩ := answers_ok hanswer
      have ht' : u₂.clock = t' := congrArg World.clock hu₂
      have htotal : metrics.countToday =
          createdSince (.ofText input.restaurantId) (E.startOfDay t') u₁.store := by
        rw [Except.ok.inj hmetrics']
        rfl
      have htoday := htoday u₁ input.restaurantId metrics u₂ u₅ e (changedBy input) e v (by simp)
        (by simp)
      change createdSince _ (E.startOfDay u₂.clock) w.store = createdSince _ _ w.store at htoday
      rw [ht'] at htoday
      rw [htotal, hstill.store, countP_sameDay hdays hafter hcreated, hr]
      exact hcreated ▸ htoday
    refine ⟨fun d hd => ?_, ?_⟩
    · rw [hstore, List.mem_append, List.mem_singleton] at hd
      obtain hd | rfl := hd
      · exact (hdated d hd).trans hlater
      · exact hcreated ▸ hclock
    · rw [hstore]
      apply counted_append hsound.counted
      rw [← hcount, he]
      rfl

/-- In a run of one operation after another on a clock that never goes back, whose
registrations all count the tickets of the day they make theirs on, the queue numbers of
a day are unique. -/
theorem queue_numbers_unique {start : Time} {tr : History} (hdays : LocalDays E)
    (htick : ∀ a b, E.tick a b → a ≤ b) (hpause : ∀ a b, E.pause a b → a ≤ b)
    (hrun : Run (Sequential E) (World.empty start) tr w) (htoday : ∀ step ∈ tr, CountedToday E step) :
    NumbersUnique E w.store := by
  refine numbersUnique_of_counted (Sound.counted (E := E) (w := w) ?_)
  refine run_invariant (I := fun _ w => Sound E w) (G := CountedToday E)
    ⟨List.forall_mem_nil _, by simp [Counted, World.empty, Store.empty]⟩
    (fun {tr w l w'} hrun hsound hstep htoday => ?_) hrun htoday
  have hheld := run_held hrun
  cases hstep with
  | @executes u op calls r t ht hexecutes =>
    have hpause := hpause _ _ ht
    have hsounds : Sound E u → Sound E (World.respond u r) := by
      rintro ⟨hdated, hcounted⟩
      exact ⟨by simpa using hdated, by simpa using hcounted⟩
    apply hsounds
    by_cases hop : ∃ input, op = .register input
    · obtain ⟨input, rfl⟩ := hop
      obtain ⟨x, hregister, -⟩ := traces_map hexecutes
      exact registered_sound hdays htick hpause hsound htoday hregister
    · have hchanges := execute_changes (w := w.at t) hheld (fun input h => hop ⟨input, h⟩) hexecutes
      have hlater : t ≤ u.clock := later_le htick (executes_later ⟨_, hexecutes⟩)
      obtain ⟨hdated, hcounted⟩ := sound_changes hchanges
        (fun e he => (hsound.dated e he).trans (hpause.trans hlater)) hsound.counted
      exact ⟨hdated, hcounted⟩

/-- Days of nineteen ticks. -/
def midnight (t : Time) : Time := t / 19 * 19

def nightEnv : Env := { smooth.env with startOfDay := midnight }

theorem nightEnv_days : LocalDays nightEnv where
  le t := Nat.div_mul_le_self t 19
  mono _ _ h := Nat.mul_le_mul_right 19 (Nat.div_le_div_right h)
  start t := by simp [nightEnv, midnight]

def nightReply (c : Call) (w : World) : Except QueueError (Answer c) × World :=
  match c with
  | .getRegistrationMetrics restaurantId =>
    (.ok (w.store.getRegistrationMetrics restaurantId (midnight (w.clock + 1))), w.at (w.clock + 1))
  | c => smooth.reply c w

theorem nightReply_answers (c : Call) (w : World) :
    nightEnv.Answers c w (nightReply c w).1 (nightReply c w).2 := by
  by_cases hc : ∃ restaurantId, c = .getRegistrationMetrics restaurantId
  · obtain ⟨restaurantId, rfl⟩ := hc
    exact ⟨w.clock + 1, rfl, .inl ⟨rfl, rfl⟩⟩
  have hreply : nightReply c w = smooth.reply c w := by
    cases c <;> first | rfl | exact (hc ⟨_, rfl⟩).elim
  have hperforms : nightEnv.Performs c = smooth.env.Performs c := by
    cases c <;> first | rfl | exact (hc ⟨_, rfl⟩).elim
  obtain ⟨t, ht, h⟩ := smooth.reply_answers c w
  refine ⟨t, ht, ?_⟩
  rw [hreply, hperforms]
  exact h

def tonight (w : World) (op : Operation) : Transition World Executed :=
  let result := run nightReply op.execute (w.at (w.clock + 1))
  ⟨w, ⟨op, result.1, result.2.1⟩, World.respond result.2.2 result.2.1⟩

def nights (w : World) : List Operation → History × World
  | [] => ([], w)
  | op :: ops =>
    let rest := nights (tonight w op).after ops
    (tonight w op :: rest.1, rest.2)

theorem nights_run (w : World) (ops : List Operation) :
    Run (Sequential nightEnv) w (nights w ops).1 (nights w ops).2 := by
  induction ops generalizing w with
  | nil => exact .nil
  | cons op ops ih =>
    exact run_cons (e := tonight w op) (.executes rfl (run_traces nightReply_answers _ _)) (ih _)

def metricsRead : Event Call Answer QueueError World → List (String × Time)
  | ⟨_, .getRegistrationMetrics r, .ok _, w⟩ => [(r, w.clock)]
  | _ => []

def ticketsMade : Event Call Answer QueueError World → List Time
  | ⟨_, .createWithHistory e _, .ok _, _⟩ => [e.createdAt]
  | _ => []

theorem countedToday_of_calls {E : Env} {step : Transition World Executed}
    (h : ∀ a ∈ step.label.calls.flatMap metricsRead, ∀ made ∈ step.label.calls.flatMap ticketsMade,
      createdSince (.ofText a.1) (E.startOfDay a.2) step.before.store =
        createdSince (.ofText a.1) (E.startOfDay made) step.before.store) : CountedToday E step := by
  intro u r metrics u' v e changedBy d v' hread hmade
  exact h (r, u'.clock) (List.mem_flatMap.mpr ⟨_, hread, List.mem_singleton_self _⟩) e.createdAt
    (List.mem_flatMap.mpr ⟨_, hmade, List.mem_singleton_self _⟩)

/-- The first party is seated around midnight, the second comes after it. -/
def pastMidnight : List Operation := [walkIn "r" "1", seatAt "r" "7" "t", walkIn "r" "2"]

theorem pastMidnight_counted :
    ∀ step ∈ (nights (.empty 0) pastMidnight).1, CountedToday nightEnv step := by
  have hcounts : ∀ step ∈ (nights (.empty 0) pastMidnight).1,
      ∀ a ∈ step.label.calls.flatMap metricsRead, ∀ made ∈ step.label.calls.flatMap ticketsMade,
        createdSince (.ofText a.1) (midnight a.2) step.before.store =
          createdSince (.ofText a.1) (midnight made) step.before.store := by
    decide +kernel
  exact fun step hstep => countedToday_of_calls (hcounts step hstep)

theorem queue_numbers_unique_pastMidnight :
    (nights (.empty 0) pastMidnight).2.store.entries.map (·.queueNumber) = ["W-001", "W-001"] ∧
      NumbersUnique nightEnv (nights (.empty 0) pastMidnight).2.store :=
  ⟨by decide +kernel, queue_numbers_unique nightEnv_days (env_tick smooth)
    (fun a b h => (env_pause smooth a b h).le) (nights_run (.empty 0) pastMidnight)
    pastMidnight_counted⟩

/-- The second party is counted in before midnight and gets its ticket after it. -/
def aroundMidnight : List Operation := [walkIn "r" "1", walkIn "r" "2", walkIn "r" "3"]

theorem numbered_twice :
    ¬ ∀ (E : Env) (start : Time) (tr : History) (w : World), LocalDays E →
      (∀ a b, E.tick a b → a ≤ b) → (∀ a b, E.pause a b → a ≤ b) →
      Run (Sequential E) (World.empty start) tr w →
      (∀ step ∈ tr, ∃ input, step.label.operation = .register input) → NumbersUnique E w.store := by
  intro h
  have hops : ∀ step ∈ (nights (.empty 0) aroundMidnight).1,
      ∃ input, step.label.operation = .register input := by
    intro step hstep
    simp only [aroundMidnight, nights, List.mem_cons, List.not_mem_nil, or_false] at hstep
    obtain rfl | rfl | rfl := hstep <;> exact ⟨_, rfl⟩
  have hunique := h nightEnv 0 _ _ nightEnv_days (env_tick smooth)
    (fun a b h => (env_pause smooth a b h).le) (nights_run (.empty 0) aroundMidnight) hops
  have htwice : (nights (.empty 0) aroundMidnight).2.store.entries.any (fun a =>
      (nights (.empty 0) aroundMidnight).2.store.entries.any fun b =>
        a.id ≠ b.id ∧ a.registrationType = b.registrationType ∧ SameDay nightEnv a b ∧
          a.queueNumber = b.queueNumber) = true := by
    decide +kernel
  obtain ⟨a, ha, hany⟩ := List.any_eq_true.mp htwice
  obtain ⟨b, hb, hboth⟩ := List.any_eq_true.mp hany
  obtain ⟨hid, htype, hday, hnumber⟩ := of_decide_eq_true hboth
  exact hunique a ha b hb hid htype hday hnumber

end SpotQueue.DailyNumbers
