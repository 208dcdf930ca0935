import Mathlib.Data.List.Induction

namespace SpotQueue.Awaits.LabelledRun

structure Transition (σ Λ : Type) where
  before : σ
  label : Λ
  after : σ

variable {σ Λ : Type} {step : σ → Λ → σ → Prop}

/-- A finite run of a labelled system together with everything it went through. -/
inductive Run (step : σ → Λ → σ → Prop) (s₀ : σ) : List (Transition σ Λ) → σ → Prop
  | nil : Run step s₀ [] s₀
  | snoc {tr : List (Transition σ Λ)} {s t : σ} {l : Λ}
      (hrun : Run step s₀ tr s) (hstep : step s l t) : Run step s₀ (tr ++ [⟨s, l, t⟩]) t

variable {s₀ s : σ} {tr : List (Transition σ Λ)}

/-- The invariant may look at what has happened so far, and the steps may be
taken from those that satisfy a condition. -/
theorem run_invariant {I : List (Transition σ Λ) → σ → Prop} {G : Transition σ Λ → Prop}
    (hinit : I [] s₀)
    (hkeep : ∀ {tr s l t}, Run step s₀ tr s → I tr s → step s l t → G ⟨s, l, t⟩ →
      I (tr ++ [⟨s, l, t⟩]) t)
    (hrun : Run step s₀ tr s) (hG : ∀ e ∈ tr, G e) : I tr s := by
  induction hrun with
  | nil => exact hinit
  | snoc hrun hstep ih =>
    exact hkeep hrun (ih fun e he => hG e (List.mem_append_left _ he)) hstep (hG _ (by simp))

theorem run_preserves {I : σ → Prop} (hinit : I s₀) (hkeep : ∀ {s l t}, I s → step s l t → I t)
    (hrun : Run step s₀ tr s) : I s :=
  run_invariant (I := fun _ => I) (G := fun _ => True) hinit
    (fun _ hi hstep _ => hkeep hi hstep) hrun fun _ _ => trivial

theorem run_cons {e : Transition σ Λ} (hstep : step e.before e.label e.after)
    (hrun : Run step e.after tr s) : Run step e.before (e :: tr) s := by
  induction hrun with
  | nil => exact (.snoc .nil hstep : Run step e.before ([] ++ [e]) e.after)
  | snoc _ hlast ih => exact .snoc ih hlast

theorem run_empty (hrun : Run step s₀ [] s) : s = s₀ := by
  generalize htr : [] = tr at hrun
  cases hrun with
  | nil => rfl
  | snoc => simp at htr

/-- A run may be cut at any transition it went through. -/
theorem run_split {pre post : List (Transition σ Λ)} {e : Transition σ Λ}
    (hrun : Run step s₀ (pre ++ e :: post) s) :
    Run step s₀ pre e.before ∧ step e.before e.label e.after ∧ Run step e.after post s := by
  induction post using List.reverseRecOn generalizing s with
  | nil =>
    generalize htr : pre ++ [e] = tr at hrun
    cases hrun with
    | nil => simp at htr
    | snoc hrun hstep =>
      obtain ⟨rfl, he⟩ := List.append_inj' htr rfl
      obtain rfl := List.singleton_inj.mp he
      exact ⟨hrun, hstep, .nil⟩
  | append_singleton post last ih =>
    generalize htr : pre ++ e :: (post ++ [last]) = tr at hrun
    cases hrun with
    | nil => simp at htr
    | snoc hrun hstep =>
      rw [← List.cons_append, ← List.append_assoc] at htr
      obtain ⟨rfl, he⟩ := List.append_inj' htr rfl
      obtain rfl := List.singleton_inj.mp he
      obtain ⟨hpre, hmid, hpost⟩ := ih hrun
      exact ⟨hpre, hmid, .snoc hpost hstep⟩

/-- The run up to one of its transitions, and with it. -/
theorem run_upto {e : Transition σ Λ} (hrun : Run step s₀ tr s) (he : e ∈ tr) :
    ∃ pre, Run step s₀ pre e.before ∧ Run step s₀ (pre ++ [e]) e.after ∧
      ∀ d ∈ pre ++ [e], d ∈ tr := by
  obtain ⟨pre, post, rfl⟩ := List.append_of_mem he
  obtain ⟨hpre, hlast, -⟩ := run_split hrun
  exact ⟨pre, hpre, .snoc hpre hlast, by simp +contextual [or_imp]⟩

theorem run_mem {e : Transition σ Λ} (hrun : Run step s₀ tr s) (he : e ∈ tr) :
    step e.before e.label e.after := by
  obtain ⟨pre, post, rfl⟩ := List.append_of_mem he
  exact (run_split hrun).2.1

end SpotQueue.Awaits.LabelledRun
