import SpotQueue.EtaClient
import SpotQueue.Registration
import SpotQueue.Simulation

namespace SpotQueue.StorableEtas

open SpotQueue.Entity SpotQueue.Repository SpotQueue.Environment SpotQueue.Recalculator
open SpotQueue.UseCases SpotQueue.Frame SpotQueue.Line SpotQueue.Guards SpotQueue.Seating
open SpotQueue.Recalculation SpotQueue.Registration SpotQueue.EtaClient SpotQueue.Simulation
open SpotQueue.Awaits.AsyncProgram SpotQueue.Awaits.AsyncProtocol

variable {ε α β : Type} {E : Env} {service : Service ε} {w w' : World} {calls : Calls}

/-- The largest value of an `Int` column. -/
def INT_MAX : Nat := 2 ^ 31 - 1

/-- The longest line considered, in people. -/
def MOST_AHEAD : Nat := 2 ^ 28

/-- A response that the rounding leaves beyond the column. -/
def Oversized (outcome : PredictionOutcome ε) : Prop :=
  ∃ value, outcome = .responded (some (.finite value)) ∧ (2 ^ 31 : Rat) - 1 / 2 ≤ value

def InRange (minutes : Rat) : Prop := ∃ n : Nat, minutes = n ∧ n ≤ INT_MAX

theorem fallbackMinutes_inRange {n : Nat} (h : n ≤ MOST_AHEAD) :
    InRange (computeFallbackMinutes n) := by
  refine ⟨fallbackMinutes n, computeFallbackMinutes_eq n, (fallbackMinutes_mono h).trans ?_⟩
  have hmost : ⌈(5 * MOST_AHEAD : Rat) / 2⌉₊ ≤ INT_MAX := by
    rw [Nat.ceil_le]
    norm_num [MOST_AHEAD, INT_MAX]
  exact max_le (by decide) hmost

theorem round_inRange {value : Rat} :
    InRange (max (0 : Rat) (round value)) ↔ value < (2 ^ 31 : Rat) - 1 / 2 := by
  have hbound : value < (2 ^ 31 : Rat) - 1 / 2 ↔ round value ≤ (INT_MAX : Int) := by
    rw [round_eq, ← Int.lt_add_one_iff, Int.floor_lt, lt_sub_iff_add_lt]
    norm_num [INT_MAX]
  rw [hbound]
  constructor
  · rintro ⟨n, hn, hle⟩
    have hround : (round value : Rat) ≤ n := hn ▸ le_max_right _ _
    have hcast : round value ≤ (n : Int) := by exact_mod_cast hround
    exact hcast.trans (Int.ofNat_le.mpr hle)
  · intro h
    refine ⟨(round value).toNat, ?_, Int.toNat_le.mpr h⟩
    rw [← Int.cast_natCast, Int.toNat_eq_max, max_comm]
    push_cast
    rfl

/-- A call predicts in range, however the breaker settles, unless its response is oversized. -/
theorem predicts_inRange {outcome : PredictionOutcome ε} {n : Nat} (h : n ≤ MOST_AHEAD) :
    (∀ minutes, Predicts outcome n minutes → InRange minutes) ↔ ¬ Oversized outcome := by
  constructor
  · rintro hfits ⟨value, rfl, hvalue⟩
    have hpredicts : Predicts (.responded (some (.finite value)) : PredictionOutcome ε) n
        (max (0 : Rat) (round value)) := predicts_iff.mpr (.inr ⟨value, rfl, rfl⟩)
    exact not_lt.mpr hvalue (round_inRange.mp (hfits _ hpredicts))
  · intro hsized minutes hpredicts
    obtain rfl | ⟨value, rfl, rfl⟩ := predicts_iff.mp hpredicts
    · exact fallbackMinutes_inRange h
    · exact round_inRange.mpr (not_le.mp fun hvalue => hsized ⟨value, rfl, hvalue⟩)

def rowMinutes (e : QueueEntry) : List Nat :=
  e.estimatedWaitMinutes.toList ++ e.estimatedWaitMinutesAtJoin.toList

/-- The estimates a call writes into the rows of the tickets. -/
def minutesWritten : Call → List Nat
  | .createWithHistory e _ | .assignTablesWithHistory e _ _ _ | .save e => rowMinutes e
  | .updateStatusWithHistory params => rowMinutes params.queueEntry
  | .batchUpdatePositions us => us.filterMap (·.estimatedWaitMinutes)
  | _ => []

/-- The estimate that an answer predicts. -/
def minutesPredicted : (c : Call) → Except QueueError (Answer c) → Option Nat
  | .predictEta _ _ _, .ok minutes => some minutes
  | _, _ => none

def carrying (Q : Nat → Prop) : Protocol Call Answer QueueError Unit :=
  ⟨fun _ c => ∀ minutes ∈ minutesWritten c, Q minutes,
    fun _ c x => ∀ minutes ∈ minutesPredicted c x, Q minutes, fun _ _ _ => ()⟩

/-- As long as only estimates of this kind are predicted, it writes no other. -/
def Carries (Q : Nat → Prop) (p : UseCase α) : Prop :=
  Follows (carrying Q) (fun _ _ => True) () p

variable {Q : Nat → Prop}

theorem carries_bind {p : UseCase α} {f : α → UseCase β} (hp : Carries Q p)
    (hf : ∀ a, Carries Q (f a)) : Carries Q (p >>= f) :=
  follows_bind hp (fun _ a _ => hf a) fun _ _ _ => trivial

theorem carries_quiet {p : UseCase α} (hp : Issues Quiet p) : Carries Q p := by
  apply follows_within hp (I := fun _ => True) _ trivial
  intro m c _ hc
  refine ⟨?_, fun _ _ => trivial⟩
  change ∀ minutes ∈ minutesWritten c, Q minutes
  obtain hc | hc := hc <;> cases c <;> first | exact hc.elim | simp [minutesWritten]

theorem carries_read {c : Call} {f : Answer c → UseCase α} (hc : Reads c)
    (hf : ∀ a, Carries Q (f a)) : Carries Q (ask c >>= f) :=
  carries_bind (carries_quiet (issues_call (.inl hc))) hf

theorem carries_predict (q : String) (ahead size : Nat) :
    Follows (carrying Q) (fun _ x => ∀ minutes, x = .ok minutes → Q minutes) ()
      (ask (.predictEta q ahead size)) := by
  refine follows_call (by simp [carrying, minutesWritten]) fun x hx minutes hminutes => ?_
  exact hx minutes (hminutes ▸ rfl)

theorem carries_registerQueue (input : RegisterQueueInput) : Carries Q (registerQueue input) := by
  have hchecks : Issues Quiet (checkAdmission input) :=
    issues_mono (fun _ h => .inl (admission_reads h)) (issues_checkAdmission input)
  refine carries_bind (carries_quiet hchecks) fun _ => carries_read trivial fun metrics => ?_
  refine follows_bind (carries_predict _ _ _) (fun _ minutes hminutes => ?_) fun _ _ _ => trivial
  have hpredicted : Q minutes := hminutes minutes rfl
  refine carries_read trivial fun id => carries_read trivial fun now => ?_
  apply carries_bind (follows_call ?_ fun _ _ => trivial)
  · intro persisted
    apply carries_bind
      (carries_quiet (issues_mono (fun _ => announcement_quiet) (issues_announce _ _ _ _)))
    exact fun _ => trivial
  · simp [carrying, minutesWritten, rowMinutes, create, hpredicted]

theorem carries_predictEtas (q : String) (inputs : List EntryInput) :
    Follows (carrying Q) (fun _ x => ∀ etas, x = .ok etas → ∀ minutes ∈ etas, Q minutes) ()
      (predictEtas q inputs) :=
  follows_mono (fun _ _ h => h.2) (follows_gather fun _ =>
    follows_mono (fun _ _ h => ⟨rfl, h⟩) (carries_predict q _ _))

theorem deltas_written {l : List QueueEntry} {etas : List Nat} {minutes : Nat}
    (h : minutes ∈ ((deltas (entryInputs 0 0 l) etas).map (·.update)).filterMap
      (·.estimatedWaitMinutes)) : minutes ∈ etas := by
  obtain ⟨u, hu, hminutes⟩ := List.mem_filterMap.mp h
  obtain ⟨δ, hδ, rfl⟩ := List.mem_map.mp hu
  obtain ⟨j, e, m, -, hm, -, rfl⟩ := mem_deltas.mp hδ
  cases hminutes
  exact List.mem_of_getElem? hm

theorem carries_recalculate (q : String) : Carries Q (recalculate q) := by
  refine carries_read trivial fun l => ?_
  change Carries Q (if _ then _ else _)
  split
  · trivial
  refine follows_bind (carries_predictEtas q _) (fun _ etas hetas => ?_) fun _ _ _ => trivial
  change Carries Q (if _ then _ else _)
  split
  · trivial
  apply carries_bind
  · rw [Recalculator.batchUpdatePositions]
    split
    · trivial
    · exact follows_call (fun minutes hin => hetas etas rfl _ (deltas_written hin)) fun _ _ => trivial
  intro _
  apply carries_bind (carries_quiet (issues_report _ _))
  exact fun _ => trivial

/-- Whatever is written was predicted in the same run. -/
theorem carries_traces {p : UseCase α} {x : Except QueueError α} (hp : ∀ Q, Carries Q p)
    (h : Traces E.Answers p w calls x w') {ev : Event Call Answer QueueError World} {minutes : Nat}
    (hev : ev ∈ calls) (hminutes : minutes ∈ minutesWritten ev.call) :
    ∃ d ∈ calls, minutes ∈ minutesPredicted d.call d.answer :=
  follows_calls (hp fun minutes => ∃ d ∈ calls, minutes ∈ minutesPredicted d.call d.answer) h
    (fun d hd _ hpredicted => ⟨d, hd, hpredicted⟩) ev hev minutes hminutes

/-- No prediction is about a line longer than `MOST_AHEAD`. -/
def Moderate (calls : Calls) : Prop :=
  ∀ ev ∈ calls, ∀ q ahead size, ev.call = .predictEta q ahead size → ahead ≤ MOST_AHEAD

/-- The estimates that the calls write fit their columns. -/
def Fit (calls : Calls) : Prop := ∀ ev ∈ calls, ∀ minutes ∈ minutesWritten ev.call, minutes ≤ INT_MAX

/-- Every estimate can be stored: the service predicts in range, and neither an insert
nor a batch is asked to write anything else. -/
structure Storable (service : Service ε) : Prop where
  predicted : ∀ request outcome, service request outcome →
    request.total_people_ahead ≤ MOST_AHEAD →
      ∀ minutes, Predicts outcome request.total_people_ahead minutes → InRange minutes
  registered : ∀ E, FromClient E service → ∀ input w calls x w',
    Traces E.Answers (registerQueue input) w calls x w' → Moderate calls → Fit calls
  recalculated : ∀ E, FromClient E service → ∀ q w calls x w',
    Traces E.Answers (recalculate q) w calls x w' → Moderate calls → Fit calls

/-- No response about a line of at most `MOST_AHEAD` people is oversized. -/
def ResponsesFit (service : Service ε) : Prop :=
  ∀ request outcome, service request outcome →
    request.total_people_ahead ≤ MOST_AHEAD → ¬ Oversized outcome

theorem predicted_fits {d : Event Call Answer QueueError World} {minutes : Nat}
    (hclient : FromClient E service) (hsized : ResponsesFit service)
    (hanswers : E.Answers d.call d.before d.answer d.after)
    (hmoderate : ∀ q ahead size, d.call = .predictEta q ahead size → ahead ≤ MOST_AHEAD)
    (hpredicted : minutes ∈ minutesPredicted d.call d.answer) : minutes ≤ INT_MAX := by
  obtain ⟨v, c, x, v'⟩ := d
  cases c with
  | predictEta q ahead size =>
    cases x with
    | error e => cases hpredicted
    | ok m =>
      cases hpredicted
      have hahead := hmoderate q ahead size rfl
      obtain ⟨-, -, ⟨m, heta, hm⟩, -⟩ := answers_ok hanswers
      cases hm
      obtain ⟨outcome, houtcome, hpredicts⟩ := hclient _ _ _ _ heta
      obtain ⟨n, hn, hle⟩ := (predicts_inRange hahead).mpr (hsized _ _ houtcome hahead) _ hpredicts
      exact (Nat.cast_injective hn : minutes = n) ▸ hle
  | _ => cases hpredicted

theorem carries_fit {p : UseCase α} {x : Except QueueError α} (hp : ∀ Q, Carries Q p)
    (hclient : FromClient E service) (hsized : ResponsesFit service)
    (h : Traces E.Answers p w calls x w') (hmoderate : Moderate calls) : Fit calls := by
  intro ev hev minutes hwritten
  obtain ⟨d, hd, hpredicted⟩ := carries_traces hp h hev hwritten
  exact predicted_fits hclient hsized (traces_answers h d hd) (hmoderate d hd) hpredicted

/-- Estimates can be stored exactly where no response is oversized. -/
theorem storable_iff_responses_fit (service : Service ε) : Storable service ↔ ResponsesFit service := by
  constructor
  · intro h request outcome houtcome hahead
    exact (predicts_inRange hahead).mp (h.predicted request outcome houtcome hahead)
  · intro hsized
    refine ⟨fun request outcome houtcome hahead => ?_, fun E hclient input w calls x w' h => ?_,
      fun E hclient q w calls x w' h => ?_⟩
    · exact (predicts_inRange hahead).mpr (hsized request outcome houtcome hahead)
    · exact carries_fit (fun _ => carries_registerQueue input) hclient hsized h
    · exact carries_fit (fun _ => carries_recalculate q) hclient hsized h

/-- A service that answers every request with three billion minutes. -/
def threeBillion : Service Unit := fun _ outcome =>
  outcome = .responded (some (.finite 3000000000))

def flooded : Script := ⟨fun _ => false, fun _ _ _ => 3000000000⟩

theorem threeBillion_predicts (n : Nat) :
    Predicts (.responded (some (.finite 3000000000)) : PredictionOutcome Unit) n
      (3000000000 : Nat) := by
  refine predicts_iff.mpr (.inr ⟨3000000000, rfl, ?_⟩)
  have hround : round (3000000000 : Rat) = 3000000000 := by norm_num
  rw [hround]
  norm_num

abbrev floodedLine := run flooded.reply (recalculate "r") (smooth.final (.empty 0) [walkIn "r" "1"])

theorem threeBillion_not_storable :
    ¬ Storable threeBillion ∧ FromClient flooded.env threeBillion ∧
      floodedLine.1.any (fun ev => ev.call = .batchUpdatePositions
        [⟨.ofText "7", 1, some 3000000000⟩]) = true := by
  refine ⟨fun hstorable => ?_, ?_, by decide +kernel⟩
  · obtain ⟨n, hn, hle⟩ := hstorable.predicted ⟨.ofText "r", 0, 2⟩ _ rfl (Nat.zero_le _) _
      (threeBillion_predicts 0)
    have hsame : 3000000000 = n := Nat.cast_injective hn
    rw [← hsame] at hle
    exact absurd hle (by decide)
  · rintro r ahead partySize minutes rfl
    exact ⟨_, rfl, threeBillion_predicts ahead⟩

end SpotQueue.StorableEtas
