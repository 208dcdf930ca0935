import SpotQueue.Awaits.AsyncPool
import Mathlib.Data.List.Forall2

namespace SpotQueue.Awaits.AsyncProjection

open SpotQueue.Awaits.AsyncProgram SpotQueue.Awaits.AsyncProtocol SpotQueue.Awaits.LabelledRun
open SpotQueue.Awaits.AsyncPool

variable {ι C : Type} {A : C → Type} {ε α β σ τ : Type}

theorem forall₂_mem {R : α → β → Prop} {l : List α} {l' : List β} {b : β} (h : List.Forall₂ R l l')
    (hb : b ∈ l') : ∃ a ∈ l, R a b := by
  induction h with
  | nil => cases hb
  | cons hab _ ih =>
    obtain rfl | hb := List.mem_cons.mp hb
    · exact ⟨_, List.mem_cons_self, hab⟩
    · obtain ⟨a, ha, hab⟩ := ih hb
      exact ⟨a, List.mem_cons_of_mem _ ha, hab⟩

/-- Which answers a body may be given in the place of which. -/
abbrev Likeness (C : Type) (A : C → Type) (ε : Type) := (c : C) → Except ε (A c) → Except ε (A c) → Prop

/-- The body goes on in the same way after answers that are alike. -/
def Heedless (R : Likeness C A ε) : Program C A ε α → Prop
  | .done _ => True
  | .reject _ => True
  | .await c k => (∀ x y, R c x y → k x = k y) ∧ ∀ x, Heedless R (k x)

variable {R : Likeness C A ε}

theorem heedless_bind {p : Program C A ε α} {f : α → Program C A ε β} (hp : Heedless R p)
    (hf : ∀ a, Heedless R (f a)) : Heedless R (p >>= f) := by
  induction p with
  | done a => exact hf a
  | reject e => trivial
  | await c k ih =>
    exact ⟨fun x y hxy => congrArg (· >>= f) (hp.1 x y hxy), fun x => ih x (hp.2 x)⟩

/-- A body is heedless if it makes no call with answers that are alike but different. -/
theorem heedless_issues {Q : C → Prop} {p : Program C A ε α} (hp : Issues Q p)
    (hQ : ∀ c x y, Q c → R c x y → x = y) : Heedless R p := by
  induction p with
  | done a => trivial
  | reject e => trivial
  | await c k ih =>
    exact ⟨fun x y hxy => congrArg k (hQ c x y hp.1 hxy), fun x => ih x (hp.2 x trivial)⟩

variable {own : ι → Prop} {H : Answers C A ε σ}
  {H' : Answers C A ε τ} {q₀ q : Pool ι C A ε α σ} {tr : Schedule ι C A ε α σ} {t : τ}

/-- The bodies of one kind, on a state of their own. -/
def only (own : ι → Prop) (bodies : ι → Program C A ε α) (t : τ) : Pool {i // own i} C A ε α τ :=
  ⟨fun i => bodies i, t⟩

/-- A transition as the bodies on their own have it, up to what they do not see. -/
inductive Mirrored (R : Likeness C A ε) : Transition (Pool ι C A ε α σ) (Step ι C A ε) →
    Transition (Pool {i // own i} C A ε α τ) (Step {i // own i} C A ε) → Prop
  | mk {q q' : Pool ι C A ε α σ} {t t' : τ} (i : {i // own i}) {c : C} {x y : Except ε (A c)}
      (hxy : R c x y) : Mirrored R ⟨q, ⟨i, c, x⟩, q'⟩ ⟨only own q.bodies t, ⟨i, c, y⟩, only own q'.bodies t'⟩

theorem mirrored_bodies {tr : Schedule ι C A ε α σ} {tr' : Schedule {i // own i} C A ε α τ}
    (h : List.Forall₂ (Mirrored R) tr tr') : tr'.map (·.label.body.val) = tr.map (·.label.body) := by
  induction h with
  | nil => rfl
  | cons he _ ih =>
    cases he
    exact congrArg (_ :: ·) ih

variable [DecidableEq ι]

theorem only_own {bodies : ι → Program C A ε α} {i : ι} (hi : own i) (p : Program C A ε α) :
    (only own (Function.update bodies i p) t).bodies =
      Function.update (only own bodies t).bodies ⟨i, hi⟩ p :=
  Function.update_comp_eq_of_injective bodies Subtype.val_injective ⟨i, hi⟩ p

theorem only_other {bodies : ι → Program C A ε α} {i : ι} (hi : ¬ own i) (p : Program C A ε α) :
    only own (Function.update bodies i p) t = only own bodies t := by
  refine congrArg (Pool.mk · t) ?_
  funext j
  apply Function.update_of_ne
  rintro rfl
  exact hi j.2

/-- If what the others do is out of sight, and what a body of the kind does can be
done on the state in view, the bodies of the kind run there as if they were alone. -/
theorem interleaves_project (own : ι → Prop) [DecidablePred own] (sim : σ → τ → Prop)
    {G : Transition (Pool ι C A ε α σ) (Step ι C A ε) → Prop}
    (hheedless : ∀ i, own i → Heedless R (q₀.bodies i)) (hinit : sim q₀.state t)
    (hown : ∀ {q i c x q' t}, own i → sim q.state t → H c q.state x q'.state → G ⟨q, ⟨i, c, x⟩, q'⟩ →
      ∃ y t', H' c t y t' ∧ R c x y ∧ sim q'.state t')
    (hother : ∀ {q i c x q' t}, ¬ own i → sim q.state t → H c q.state x q'.state →
      G ⟨q, ⟨i, c, x⟩, q'⟩ → sim q'.state t)
    (hrun : Run (Interleaves H) q₀ tr q) (hG : ∀ e ∈ tr, G e) :
    ∃ tr' t', Run (Interleaves H') (only own q₀.bodies t) tr' (only own q.bodies t') ∧
      List.Forall₂ (Mirrored R) (tr.filter fun e => own e.label.body) tr' ∧
      sim q.state t' := by
  suffices h : (∀ i, own i → Heedless R (q.bodies i)) ∧
      ∃ tr' t', Run (Interleaves H') (only own q₀.bodies t) tr' (only own q.bodies t') ∧
        List.Forall₂ (Mirrored R) (tr.filter fun e => own e.label.body) tr' ∧
        sim q.state t' from h.2
  refine run_invariant (I := fun tr (q : Pool ι C A ε α σ) => (∀ i, own i → Heedless R (q.bodies i)) ∧
    ∃ tr' t', Run (Interleaves H') (only own q₀.bodies t) tr' (only own q.bodies t') ∧
      List.Forall₂ (Mirrored R) (tr.filter fun e => own e.label.body) tr' ∧
      sim q.state t') ⟨hheedless, [], t, .nil, .nil, hinit⟩ ?_ hrun hG
  rintro tr q l q' - ⟨hh, tr', t', hrun', htr, hsim⟩ hq hg
  obtain ⟨i, hi, hc⟩ := hq
  rename_i c k x s
  constructor
  · intro j hj
    by_cases hji : j = i
    · subst hji
      have hbody := hh j hj
      rw [hi] at hbody
      simpa using hbody.2 x
    · simpa [hji] using hh j hj
  by_cases hmine : own i
  · obtain ⟨y, u, hanswers, hxy, hsim'⟩ := hown hmine hsim hc hg
    have hbody := hh i hmine
    rw [hi] at hbody
    have hstep : Interleaves H' (only own q.bodies t') ⟨⟨i, hmine⟩, c, y⟩
        (only own (Function.update q.bodies i (k x)) u) := by
      have h := Interleaves.await (q := only own q.bodies t') ⟨i, hmine⟩ hi hanswers
      rw [← hbody.1 x y hxy, ← only_own (t := t') hmine] at h
      exact h
    refine ⟨_, u, .snoc hrun' hstep, ?_, hsim'⟩
    rw [List.filter_append, List.filter_cons_of_pos (by simpa using hmine), List.filter_nil]
    exact List.rel_append htr (.cons (.mk ⟨i, hmine⟩ hxy) .nil)
  · refine ⟨tr', t', ?_, ?_, hother hmine hsim hc hg⟩
    · rwa [only_other hmine]
    · rwa [List.filter_append, List.filter_cons_of_neg (by simpa using hmine), List.filter_nil,
        List.append_nil]

end SpotQueue.Awaits.AsyncProjection
