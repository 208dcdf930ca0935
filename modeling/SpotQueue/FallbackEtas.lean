import SpotQueue.EtaClient
import SpotQueue.LinePositions
import SpotQueue.Simulation

namespace SpotQueue.FallbackEtas

open SpotQueue.Entity SpotQueue.Repository SpotQueue.Environment SpotQueue.Recalculator
open SpotQueue.UseCases SpotQueue.Guards SpotQueue.Line SpotQueue.Recalculation
open SpotQueue.Registration SpotQueue.RowWrites SpotQueue.LinePositions SpotQueue.EtaClient
open SpotQueue.Simulation SpotQueue.Awaits.AsyncProgram

variable {ε : Type} {E : Env} {service : Service ε} {w w' : World} {s : Store} {r : Uuid}
  {q : String} {l : List QueueEntry} {e : QueueEntry} {etas : List Nat} {t : Time} {j : Nat}

/-- Every prediction call fails. -/
def Down (service : Service ε) : Prop :=
  ∀ request outcome, service request outcome → ∃ error, outcome = .failed error

/-- All that may be predicted is what the fallback computes. -/
def Fallback (E : Env) : Prop :=
  ∀ r totalPeopleAhead partySize minutes, E.eta r totalPeopleAhead partySize minutes →
    minutes = fallbackMinutes totalPeopleAhead

theorem down_predicts {request : PredictionRequest} {outcome : PredictionOutcome ε} {minutes : Rat}
    (hdown : Down service) (h : service request outcome)
    (hpredicts : Predicts outcome request.total_people_ahead minutes) :
    minutes = fallbackMinutes request.total_people_ahead := by
  obtain ⟨error, rfl⟩ := hdown _ _ h
  obtain hminutes | ⟨value, hvalue, -⟩ := predicts_iff.mp hpredicts
  · rw [hminutes, computeFallbackMinutes_eq]
  · cases hvalue

theorem down_fallback (hdown : Down service) (hclient : FromClient E service) : Fallback E := by
  intro r ahead partySize minutes heta
  obtain ⟨outcome, houtcome, hpredicts⟩ := hclient _ _ _ _ heta
  have hcast := down_predicts hdown houtcome hpredicts
  exact Nat.cast_injective hcast

def minutesOf (s : Store) (id : Uuid) : Option Nat := (s.find id).bind (·.estimatedWaitMinutes)

/-- Every row of the line says what the fallback makes of those in front of it. -/
structure FallbackLine (l : List QueueEntry) (s : Store) : Prop where
  minutes : ∀ (j : Nat) (e : QueueEntry), l[j]? = some e →
    minutesOf s e.id = some (fallbackMinutes (sumPartySize (l.take j)))
  ascending : ∀ (i j : Nat) (a b : QueueEntry) (m n : Nat), i ≤ j → l[i]? = some a → l[j]? = some b →
    minutesOf s a.id = some m → minutesOf s b.id = some n → m ≤ n

theorem sumPartySize_take_mono {i j : Nat} (h : i ≤ j) (l : List QueueEntry) :
    sumPartySize (l.take i) ≤ sumPartySize (l.take j) := by
  obtain ⟨rest, hrest⟩ := List.take_prefix_take_left h (l := l)
  rw [← hrest, sumPartySize, sumPartySize, List.map_append, List.sum_append]
  exact Nat.le_add_right _ _

/-- The row at place `j` as a committed batch leaves it. -/
theorem batched_row (hline : IsLine s (.ofText q) l) (hetas : EtasOf E q l etas)
    (hj : l[j]? = some e) :
    ∃ m u, E.eta (.ofText q) (sumPartySize (l.take j)) e.partySize m ∧ etas[j]? = some m ∧
      (s.updatePositions (recalculation l etas) t).find e.id = some { e with
        position := some (j + 1), estimatedWaitMinutes := some m, updatedAt := u } := by
  obtain ⟨m, u, hm, hrow⟩ := renumbered_row (t := t) hline (etasOf_length hetas) hj
  have hstored : s.find e.id = some e :=
    find_eq_some.mpr ⟨((isLine_mem hline).mp (List.mem_of_getElem? hj)).1, rfl⟩
  refine ⟨m, u, etasOf_getElem? hetas hj hm, hm, ?_⟩
  rw [find_map (Store.updatePositions_entries _ _ _) (foldl_applyUpdate_id t _), hstored,
    Option.map_some, hrow]

theorem fallbackLine_batched (hfallback : Fallback E) (hline : IsLine s (.ofText q) l)
    (hetas : EtasOf E q l etas) :
    FallbackLine l (s.updatePositions (recalculation l etas) t) := by
  have hminutes : ∀ j e, l[j]? = some e →
      minutesOf (s.updatePositions (recalculation l etas) t) e.id =
        some (fallbackMinutes (sumPartySize (l.take j))) := by
    intro j e hj
    obtain ⟨m, u, heta, -, hfind⟩ := batched_row (t := t) hline hetas hj
    rw [minutesOf, hfind, Option.bind_some, hfallback _ _ _ _ heta]
  refine ⟨hminutes, fun i j a b m n hij ha hb hm hn => ?_⟩
  rw [hminutes i a ha] at hm
  rw [hminutes j b hb] at hn
  cases hm
  cases hn
  exact fallbackMinutes_mono (sumPartySize_take_mono hij l)

/-- With the newcomer at its end, the line is read in the order it held before. -/
theorem joined_line {s' : Store} (hperm : l.Perm (s.waiting r)) (hl : Numbered l)
    (hwaiting : s'.waiting r = s.waiting r ++ [e]) (hposition : e.position = some (l.length + 1))
    {l' : List QueueEntry} (hline : IsLine s' r l') : l' = l ++ [e] := by
  refine numbered_line_unique (hwaiting ▸ hperm.append_right [e]) (fun j d hd => ?_) hline
  obtain hj | hj := Nat.lt_or_ge j l.length
  · rw [List.getElem?_append_left hj] at hd
    exact hl j d hd
  · rw [List.getElem?_append_right hj] at hd
    obtain ⟨hlt, hlast⟩ := List.getElem?_eq_some_iff.mp hd
    have hjl : j = l.length := by
      rw [List.length_singleton] at hlt
      omega
    subst hjl
    simp only [Nat.sub_self, List.getElem_cons_zero] at hlast
    exact hlast ▸ hposition

/-- A registration that went through gives the newcomer the place after the line and
the fallback for everyone in it. -/
theorem registerQueue_fallback {input : RegisterQueueInput} {output : RegisterQueueOutput}
    (hfallback : Fallback E) (hr : .ofText input.restaurantId = r)
    (h : Executes E.Answers (registerQueue input) w (.ok output) w') :
    ∃ e, w'.store.entries = w.store.entries ++ [e] ∧ w'.store.waiting r = w.store.waiting r ++ [e] ∧
      output = toOutputDTO e ∧ e.position = some ((w.store.waiting r).length + 1) ∧
        e.estimatedWaitMinutes = some (fallbackMinutes (sumPartySize (w.store.waiting r))) := by
  obtain ⟨calls, h⟩ := h
  cases registerQueue_executes h with
  | @registered _ _ _ _ minutes _ metrics e _ _ _ _ _ v _ _ hmetrics heta he _ hfresh _ _ hv hrest =>
    have hentries : w'.store.entries = w.store.entries ++ [e] := by
      rw [(announce_calm ⟨_, hrest⟩).store, hv.store]
      rfl
    subst hr
    have howned : e.restaurantId = .ofText input.restaurantId := he ▸ rfl
    have hwaits : e.status = .waiting := he ▸ rfl
    have hminutes : minutes = fallbackMinutes (sumPartySize (w.store.waiting (.ofText
        input.restaurantId))) := by
      rw [hfallback _ _ _ _ heta, hmetrics]
      rfl
    refine ⟨e, hentries, by simp [Store.waiting, hentries, howned, hwaits], rfl, ?_, ?_⟩
    · rw [he, hmetrics]
      rfl
    · rw [he, ← hminutes]
      rfl

/-- The next recalculation predicts the newcomer what it was told, and leaves its row alone. -/
theorem newcomer_kept {v v' : World} {result : PositionRecalculationResult} (hfallback : Fallback E)
    (hinLine : InLine (.ofText q) w.store)
    (hwaiting : v.store.waiting (.ofText q) = w.store.waiting (.ofText q) ++ [e])
    (hposition : e.position = some ((w.store.waiting (.ofText q)).length + 1))
    (hminutes : e.estimatedWaitMinutes =
      some (fallbackMinutes (sumPartySize (w.store.waiting (.ofText q)))))
    (h : Executes E.Answers (recalculate q) v (.ok result) v') :
    e.id ∉ result.updatedEntryIds ∧ minutesOf v'.store e.id = e.estimatedWaitMinutes := by
  obtain ⟨l', etas, t, hline', hetas, hstore, hupdated⟩ := recalculate_ok h
  have hline := findActiveEntries_isLine w.store q
  have hlast := joined_line hline.perm (numbered_of_inLine hline hinLine) hwaiting
    (hline.perm.length_eq ▸ hposition) hline'
  have hj : l'[(w.store.findActiveEntries q).length]? = some e := by simp [hlast]
  have hahead : sumPartySize (l'.take (w.store.findActiveEntries q).length) =
      sumPartySize (w.store.waiting (.ofText q)) := by
    rw [hlast, List.take_left, sumPartySize_perm hline.perm]
  obtain ⟨m, u, heta, hm, hfind⟩ := batched_row (t := t) hline' hetas hj
  have hsame : e.estimatedWaitMinutes = some m := by
    rw [hminutes, hfallback _ _ _ _ heta, hahead]
  constructor
  · intro hin
    rw [hupdated] at hin
    obtain ⟨δ, hδ, hid⟩ := List.mem_map.mp hin
    obtain ⟨i, d, n, hd, hn, hdiffers, rfl⟩ := mem_deltas.mp hδ
    obtain ⟨rfl, rfl⟩ := index_unique (isLine_nodup hline') hd hj hid
    cases hm.symm.trans hn
    rw [hposition, hline.perm.length_eq, hsame] at hdiffers
    exact hdiffers.elim (fun h => h rfl) fun h => h rfl
  · rw [hstore, minutesOf, hfind, Option.bind_some, hsame]

/-- Without the model service every prediction is a whole number of minutes, a recalculated
line carries them in order, and a newcomer is told what the next recalculation predicts. -/
theorem fallback_consistent (hdown : Down service) (hclient : FromClient E service) :
    (∀ request outcome minutes, service request outcome →
      (Predicts outcome request.total_people_ahead minutes ↔
        minutes = fallbackMinutes request.total_people_ahead)) ∧
    (∀ q w w' result, Executes E.Answers (recalculate q) w (.ok result) w' →
      ∃ l, IsLine w.store (.ofText q) l ∧ FallbackLine l w'.store) ∧
    ∀ input w w' output, InLine (.ofText input.restaurantId) w.store →
      Executes E.Answers (registerQueue input) w (.ok output) w' →
      ∃ e, w'.store.entries = w.store.entries ++ [e] ∧ output = toOutputDTO e ∧
        e.estimatedWaitMinutes = some (fallbackMinutes
          (sumPartySize (w.store.waiting (.ofText input.restaurantId)))) ∧
        ∀ v v' result, v.store.waiting (.ofText input.restaurantId) =
            w'.store.waiting (.ofText input.restaurantId) →
          Executes E.Answers (recalculate input.restaurantId) v (.ok result) v' →
          e.id ∉ result.updatedEntryIds ∧ minutesOf v'.store e.id = e.estimatedWaitMinutes := by
  have hfallback := down_fallback hdown hclient
  refine ⟨fun request outcome minutes houtcome => ?_, fun q w w' result h => ?_,
    fun input w w' output hinLine h => ?_⟩
  · constructor
    · exact down_predicts hdown houtcome
    · rintro rfl
      exact predicts_iff.mpr (.inl (computeFallbackMinutes_eq _).symm)
  · obtain ⟨l, etas, t, hline, hetas, hstore, -⟩ := recalculate_ok h
    exact ⟨l, hline, hstore ▸ fallbackLine_batched hfallback hline hetas⟩
  · obtain ⟨e, hentries, hwaiting, houtput, hposition, hminutes⟩ :=
      registerQueue_fallback hfallback rfl h
    exact ⟨e, hentries, houtput, hminutes, fun v v' result hsame hrec =>
      newcomer_kept hfallback hinLine (hsame.trans hwaiting) hposition hminutes hrec⟩

/-- Nothing fails but the predictions, which fall back. -/
def unanswered : Script := ⟨fun _ => false, fun _ ahead _ => fallbackMinutes ahead⟩

/-- Three have been told what a service once answered. -/
def toldBefore : World := smooth.final (.empty 0) [walkIn "r" "1", walkIn "r" "2", walkIn "r" "3"]

def fourth : RegisterQueueInput :=
  ⟨"r", none, some "staff", "Guest", "4", 2, none, none, none, nobody, someStaff⟩

abbrev toldAgain := run unanswered.reply (recalculate "r") toldBefore

abbrev fourJoined := run unanswered.reply (registerQueue fourth) toldBefore

abbrev fourRecalculated := run unanswered.reply (recalculate "r") fourJoined.2.2

theorem fallback_consistent_four :
    (∃ l, IsLine toldBefore.store (.ofText "r") l ∧ FallbackLine l toldAgain.2.2.store) ∧
      ∃ e, fourJoined.2.2.store.entries = toldBefore.store.entries ++ [e] ∧
        e.estimatedWaitMinutes = some 15 ∧
          minutesOf fourRecalculated.2.2.store e.id = some 15 := by
  have hclient : FromClient unanswered.env fun _ outcome => outcome = .failed () := by
    rintro r ahead partySize minutes rfl
    exact ⟨_, rfl, predicts_iff.mpr (.inl (computeFallbackMinutes_eq _).symm)⟩
  have hagain : toldAgain.2.1 = .ok ⟨3, [.ofText "7", .ofText "19", .ofText "31"]⟩ := by
    decide +kernel
  have hlast : fourRecalculated.2.1 = .ok ⟨3, [.ofText "7", .ofText "19", .ofText "31"]⟩ := by
    decide +kernel
  have hinLine : InLine (.ofText "r") toldBefore.store := by
    rw [InLine]
    decide +kernel
  have hjoined : fourJoined.2.1.toOption.isSome = true := by decide +kernel
  obtain ⟨-, hline, hjoin⟩ := fallback_consistent (E := unanswered.env) (fun _ _ h => ⟨(), h⟩) hclient
  refine ⟨hline _ _ _ _ (hagain ▸ unanswered.run_executes _ _), ?_⟩
  obtain ⟨output, hout⟩ := Option.isSome_iff_exists.mp hjoined
  cases hresult : fourJoined.2.1 with
  | error e => rw [hresult] at hout; cases hout
  | ok output =>
    obtain ⟨e, hentries, -, hminutes, hnext⟩ :=
      hjoin fourth toldBefore fourJoined.2.2 output hinLine (hresult ▸ unanswered.run_executes _ _)
    have hfifteen : some (fallbackMinutes (sumPartySize (toldBefore.store.waiting (.ofText "r")))) =
        some 15 := by decide +kernel
    obtain ⟨-, hkept⟩ :=
      hnext fourJoined.2.2 fourRecalculated.2.2 _ rfl (hlast ▸ unanswered.run_executes _ _)
    exact ⟨e, hentries, hminutes.trans hfifteen, hkept.trans (hminutes.trans hfifteen)⟩

end SpotQueue.FallbackEtas
