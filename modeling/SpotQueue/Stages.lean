import SpotQueue.Seating

namespace SpotQueue.Stages

open SpotQueue.Entity SpotQueue.Repository SpotQueue.Environment SpotQueue.Recalculator
open SpotQueue.UseCases SpotQueue.Frame SpotQueue.Guards SpotQueue.Recalculation SpotQueue.Seating
open SpotQueue.Awaits.AsyncProgram SpotQueue.Awaits.AsyncProtocol

variable {E : Env} {w w₀ w' : World} {calls : Calls} {c : Call} {α β : Type}

/-- Calls whose rejection the caller catches: the cache, and what a recalculation reports. -/
def Guarded : Call → Prop
  | .redisSet _ _ | .redisDel _ => True
  | .sendToTicket _ event _ | .broadcastToRestaurant _ event _ => event = .queuePositionUpdated
  | _ => False

instance : DecidablePred Guarded := fun c => by
  apply Call.casesOn (motive := fun c => Decidable (Guarded c)) c <;> intros <;>
    unfold Guarded <;> infer_instance

/-- Transactions that add a history row. -/
def Logs : Call → Prop
  | .assignTablesWithHistory _ _ _ _ | .updateStatusWithHistory _ => True
  | _ => False

instance : DecidablePred Logs := fun c => by
  apply Call.casesOn (motive := fun c => Decidable (Logs c)) c <;> intros <;>
    unfold Logs <;> infer_instance

/-- Transactions that change rows without a history row. -/
def Readjusts : Call → Prop
  | .batchUpdatePositions _ | .releaseTableAssignments _ => True
  | _ => False

instance : DecidablePred Readjusts := fun c => by
  apply Call.casesOn (motive := fun c => Decidable (Readjusts c)) c <;> intros <;>
    unfold Readjusts <;> infer_instance

/-- Calls that leave the tables alone. -/
def Harmless (c : Call) : Prop :=
  Quiet c ∨ (∃ r tables, c = .assignTables r tables) ∨ ∃ r tables, c = .releaseTables r tables

theorem harmless_store {x : Except QueueError (Answer c)} (hc : Harmless c)
    (h : E.Answers c w x w') : w'.store = w.store := by
  obtain hc | ⟨r, tables, rfl⟩ | ⟨r, tables, rfl⟩ := hc
  · exact (answers_calm hc h).store
  · obtain ⟨t, -, ⟨-, rfl⟩ | ⟨-, -, -, rfl⟩⟩ := h <;> rfl
  · obtain ⟨t, -, ⟨-, rfl⟩ | ⟨-, -, -, rfl⟩⟩ := h <;> rfl

theorem logs_history {a : Answer c} (hc : Logs c) (h : E.Answers c w (.ok a) w') :
    w'.store.history.length = w.store.history.length + 1 := by
  obtain ⟨t, -, hp⟩ := answers_ok h
  cases c with
  | assignTablesWithHistory e tableIds assignedBy previousStatus =>
    obtain ⟨-, s, hs, rfl⟩ := transacts_ok hp
    obtain ⟨-, rfl⟩ := Store.assignTablesWithHistory_ok.mp hs
    simp [World.commit, World.at]
  | updateStatusWithHistory params =>
    obtain ⟨-, s, hs, rfl⟩ := transacts_ok hp
    obtain ⟨-, rfl⟩ := Store.updateStatusWithHistory_ok.mp hs
    simp [World.commit, World.at]
  | _ => exact hc.elim

theorem readjusts_history {a : Answer c} (hc : Readjusts c) (h : E.Answers c w (.ok a) w') :
    w'.store.history = w.store.history := by
  obtain ⟨t, -, hp⟩ := answers_ok h
  cases c with
  | batchUpdatePositions us =>
    obtain ⟨-, s, hs, rfl⟩ := transacts_ok hp
    obtain ⟨-, rfl⟩ := Store.batchUpdatePositions_ok.mp hs
    rfl
  | releaseTableAssignments q =>
    obtain ⟨-, rfl⟩ := hp
    rfl
  | _ => exact hc.elim

/-- How far an operation has come: nothing written, rows changed but no history
row yet, a history row added, given up on a rejected call. -/
inductive Stage
  | untouched | touched | logged | broken
deriving DecidableEq

def staged : Protocol Call Answer QueueError Stage where
  allows
    | .untouched, c => Harmless c ∨ Readjusts c ∨ Logs c
    | .touched, c => Logs c
    | .logged, c => Harmless c ∨ Readjusts c
    | .broken, _ => False
  expects _ c x := c.Dependency ∨ ∃ a, x = .ok a
  next stage c x := match x with
    | .error _ => if Guarded c then stage else .broken
    | .ok _ =>
      if Logs c then .logged else if stage = .untouched ∧ Readjusts c then .touched else stage

def Alters (ev : Event Call Answer QueueError World) : Prop := ev.after.store ≠ ev.before.store

def Rejected (ev : Event Call Answer QueueError World) : Prop :=
  ¬ Guarded ev.call ∧ ∃ e, ev.answer = .error e

/-- No unguarded call is rejected after the tables have changed. -/
def Uninterrupted (calls : Calls) : Prop := calls.Pairwise fun d ev => Alters d → ¬ Rejected ev

theorem uninterrupted_snoc {ev : Event Call Answer QueueError World} :
    Uninterrupted (calls ++ [ev]) ↔ Uninterrupted calls ∧ (Rejected ev → ∀ d ∈ calls, ¬ Alters d) := by
  rw [Uninterrupted, List.pairwise_append]
  simp only [List.pairwise_singleton, List.mem_singleton, forall_eq, true_and]
  exact and_congr_right fun _ => ⟨fun h hev d hd hc => h d hd hc hev, fun h d hd hc hev => h hev d hd hc⟩

/-- What the stage says about the calls so far and the tables. -/
def Progress (w₀ : World) (calls : Calls) : Stage → World → Prop
  | .untouched, w => w.store = w₀.store ∧ ∀ d ∈ calls, ¬ Alters d
  | .touched, w => Uninterrupted calls ∧ w.store.history = w₀.store.history ∧
      (w.store = w₀.store ↔ ∀ d ∈ calls, ¬ Alters d)
  | .logged, w => Uninterrupted calls ∧ w₀.store.history.length < w.store.history.length ∧
      ∃ d ∈ calls, Alters d
  | .broken, w => w.store = w₀.store ↔ Uninterrupted calls

theorem uninterrupted_of_unaltered (h : ∀ d ∈ calls, ¬ Alters d) : Uninterrupted calls :=
  List.pairwise_of_forall_mem_list fun d hd _ _ hc => (h d hd hc).elim

theorem staged_expects {stage : Stage} {x : Except QueueError (Answer c)}
    (h : E.Answers c w x w') : staged.expects stage c x := by
  obtain ⟨t, -, hp | ⟨hd, -⟩⟩ := h
  · cases c with
    | now => exact .inr ⟨_, hp.1⟩
    | randomUUID => exact .inr hp.1
    | _ => exact .inl trivial
  · exact .inl hd

/-- A rejected call changes nothing; unguarded, it breaks the operation off. -/
theorem progress_rejected {stage : Stage} {e : QueueError} (hstage : stage ≠ .broken)
    (h : E.Answers c w (.error e) w') (hJ : Progress w₀ calls stage w) :
    Progress w₀ (calls ++ [⟨w, c, .error e, w'⟩]) (staged.next stage c (.error e)) w' := by
  have hstore := (rejected_still h).store
  have hunaltered : ¬ Alters (⟨w, c, .error e, w'⟩ : Event Call Answer QueueError World) :=
    fun halters => halters hstore
  have hall : (∀ d ∈ calls ++ [⟨w, c, .error e, w'⟩], ¬ Alters d) ↔ ∀ d ∈ calls, ¬ Alters d := by
    simp [or_imp, forall_and, hunaltered]
  by_cases hc : Guarded c
  · have hnext : staged.next stage c (.error e) = stage := if_pos hc
    have hkept : Uninterrupted calls → Uninterrupted (calls ++ [⟨w, c, .error e, w'⟩]) := fun hu =>
      uninterrupted_snoc.mpr ⟨hu, fun hev => (hev.1 hc).elim⟩
    rw [hnext]
    cases stage with
    | untouched => exact ⟨hstore.trans hJ.1, hall.mpr hJ.2⟩
    | touched => exact ⟨hkept hJ.1, by rw [hstore]; exact hJ.2.1, by rw [hstore, hall]; exact hJ.2.2⟩
    | logged =>
      obtain ⟨d, hd, halters⟩ := hJ.2.2
      exact ⟨hkept hJ.1, by rw [hstore]; exact hJ.2.1, d, List.mem_append_left _ hd, halters⟩
    | broken => exact (hstage rfl).elim
  · have hnext : staged.next stage c (.error e) = .broken := if_neg hc
    rw [hnext, Progress, hstore, uninterrupted_snoc]
    have hev : Rejected (⟨w, c, .error e, w'⟩ : Event Call Answer QueueError World) := ⟨hc, e, rfl⟩
    cases stage with
    | untouched =>
      exact iff_of_true hJ.1 ⟨uninterrupted_of_unaltered hJ.2, fun _ => hJ.2⟩
    | touched =>
      exact hJ.2.2.trans ⟨fun h => ⟨hJ.1, fun _ => h⟩, fun h => h.2 hev⟩
    | logged =>
      obtain ⟨hu, hlen, d, hd, halters⟩ := hJ
      refine iff_of_false (fun heq => ?_) fun h => h.2 hev d hd halters
      rw [heq] at hlen
      exact Nat.lt_irrefl _ hlen
    | broken => exact (hstage rfl).elim

theorem progress_resolved {stage : Stage} {a : Answer c} (hallows : staged.allows stage c)
    (h : E.Answers c w (.ok a) w') (hJ : Progress w₀ calls stage w) :
    Progress w₀ (calls ++ [⟨w, c, .ok a, w'⟩]) (staged.next stage c (.ok a)) w' := by
  have hresolved : ¬ Rejected (⟨w, c, .ok a, w'⟩ : Event Call Answer QueueError World) := by
    rintro ⟨-, e, he⟩
    cases he
  have hkept : Uninterrupted calls → Uninterrupted (calls ++ [⟨w, c, .ok a, w'⟩]) := fun hu =>
    uninterrupted_snoc.mpr ⟨hu, fun hev => (hresolved hev).elim⟩
  by_cases hlogs : Logs c
  · have hnext : staged.next stage c (.ok a) = .logged := if_pos hlogs
    have hlen := logs_history hlogs h
    have halters : Alters (⟨w, c, .ok a, w'⟩ : Event Call Answer QueueError World) := by
      intro heq
      have hstore : w'.store = w.store := heq
      rw [hstore] at hlen
      omega
    have hlast : ∃ d ∈ calls ++ [⟨w, c, .ok a, w'⟩], Alters d := ⟨_, by simp, halters⟩
    rw [hnext]
    cases stage with
    | untouched =>
      exact ⟨hkept (uninterrupted_of_unaltered hJ.2), by rw [← hJ.1]; omega, hlast⟩
    | touched => exact ⟨hkept hJ.1, by rw [← hJ.2.1]; omega, hlast⟩
    | logged => exact ⟨hkept hJ.1, by have hlt := hJ.2.1; omega, hlast⟩
    | broken => exact hallows.elim
  by_cases hfirst : stage = .untouched ∧ Readjusts c
  · have hnext : staged.next stage c (.ok a) = .touched := (if_neg hlogs).trans (if_pos hfirst)
    have hhistory := readjusts_history hfirst.2 h
    rw [hnext]
    obtain ⟨rfl, -⟩ := hfirst
    obtain ⟨hstore, hunaltered⟩ := hJ
    refine ⟨hkept (uninterrupted_of_unaltered hunaltered), by rw [hhistory, hstore], ?_⟩
    rw [← hstore]
    simpa [or_imp, forall_and, Alters] using fun _ => hunaltered
  · have hnext : staged.next stage c (.ok a) = stage := (if_neg hlogs).trans (if_neg hfirst)
    rw [hnext]
    cases stage with
    | untouched =>
      obtain hharmless | hreadjusts | hlogs' := hallows
      · have hstore := harmless_store hharmless h
        refine ⟨hstore.trans hJ.1, ?_⟩
        simpa [or_imp, forall_and, Alters, hstore] using hJ.2
      · exact (hfirst ⟨rfl, hreadjusts⟩).elim
      · exact (hlogs hlogs').elim
    | touched => exact (hlogs hallows).elim
    | logged =>
      have hhistory : w'.store.history = w.store.history := by
        obtain hharmless | hreadjusts := hallows
        · rw [harmless_store hharmless h]
        · exact readjusts_history hreadjusts h
      obtain ⟨hu, hlen, d, hd, halters⟩ := hJ
      exact ⟨hkept hu, hhistory ▸ hlen, d, List.mem_append_left _ hd, halters⟩
    | broken => exact hallows.elim

theorem progress_step {stage : Stage} {x : Except QueueError (Answer c)}
    (hallows : staged.allows stage c) (hJ : Progress w₀ calls stage w) (h : E.Answers c w x w') :
    staged.expects stage c x ∧
      Progress w₀ (calls ++ [⟨w, c, x, w'⟩]) (staged.next stage c x) w' := by
  refine ⟨staged_expects h, ?_⟩
  cases x with
  | ok a => exact progress_resolved hallows h hJ
  | error e =>
    refine progress_rejected ?_ h hJ
    rintro rfl
    exact hallows

def Ends (B : Stage → Prop) (stage : Stage) (x : Except QueueError α) : Prop :=
  match x with
  | .ok _ => B stage
  | .error _ => stage = .untouched ∨ stage = .broken

/-- The body takes the operation from one stage to another; when it rejects,
nothing was written yet or a call broke it off. -/
abbrev Advances (stage : Stage) (B : Stage → Prop) (p : UseCase α) : Prop :=
  Follows staged (Ends B) stage p

theorem advances_bind {stage : Stage} {B C : Stage → Prop} {p : UseCase α} {f : α → UseCase β}
    (hp : Advances stage B p) (hf : ∀ stage, B stage → ∀ a, Advances stage C (f a)) :
    Advances stage C (p >>= f) :=
  follows_bind hp (fun stage a hB => hf stage hB a) fun _ _ h => h

theorem advances_mono {stage : Stage} {B C : Stage → Prop} (hBC : ∀ stage, B stage → C stage)
    {p : UseCase α} (hp : Advances stage B p) : Advances stage C p :=
  follows_mono (fun stage x h => match x with
    | .ok _ => hBC stage h
    | .error _ => h) hp

/-- Calls that leave the stage alone unless they break it off. -/
def Keeps (stage : Stage) (c : Call) : Prop :=
  ¬ Guarded c ∧ ¬ Logs c ∧ staged.allows stage c ∧ (stage = .untouched → ¬ Readjusts c)

theorem advances_straight {stage : Stage} {T : Prop} {p : UseCase α} (hT : T → stage = .untouched)
    (hp : Straight (Keeps stage) T p) : Advances stage (· = stage) p := by
  refine follows_mono ?_ (follows_straight (m := stage) (P := staged) hp fun c hc =>
    ⟨hc.2.2.1, fun a _ => ?_⟩)
  · rintro m (e | a) h
    · obtain ⟨rfl, hthrow⟩ | ⟨c, e, hc, -, rfl⟩ := h
      · exact .inl (hT hthrow)
      · exact .inr (if_neg hc.1)
    · exact h
  · exact (if_neg hc.2.1).trans (if_neg fun h => hc.2.2.2 h.1 h.2)

theorem advances_call {stage next : Stage} {c : Call} (hc : staged.allows stage c)
    (hguarded : ¬ Guarded c) (hnext : ∀ a, staged.next stage c (.ok a) = next) :
    Advances stage (· = next) (ask c) :=
  follows_call hc fun x _ => match x with
    | .ok a => hnext a
    | .error _ => .inr (if_neg hguarded)

theorem reads_keeps {stage : Stage} (hstage : stage = .untouched ∨ stage = .logged) (hc : Reads c) :
    Keeps stage c := by
  have hallows : staged.allows stage c := by
    obtain rfl | rfl := hstage
    · exact .inl (.inl (.inl hc))
    · exact .inl (.inl (.inl hc))
  refine ⟨?_, ?_, hallows, fun _ => ?_⟩ <;> cases c <;> first | exact hc.elim | exact id

theorem advances_reads {p : UseCase α} (hp : Straight Reads True p) :
    Advances .untouched (· = .untouched) p :=
  advances_straight (fun _ => rfl) (straight_mono (fun _ => reads_keeps (.inl rfl)) id hp)

end SpotQueue.Stages
