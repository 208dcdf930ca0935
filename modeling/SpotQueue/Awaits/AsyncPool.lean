import SpotQueue.Awaits.AsyncProtocol
import SpotQueue.Awaits.LabelledRun
import Mathlib.Logic.Function.Basic

namespace SpotQueue.Awaits.AsyncPool

open SpotQueue.Awaits.AsyncProgram SpotQueue.Awaits.AsyncProtocol SpotQueue.Awaits.LabelledRun

variable {ι C : Type} {A : C → Type} {ε α σ M : Type} [DecidableEq ι]

/-- Bodies under way at the same time on one state. -/
structure Pool (ι C : Type) (A : C → Type) (ε α σ : Type) where
  bodies : ι → Program C A ε α
  state : σ

structure Step (ι C : Type) (A : C → Type) (ε : Type) where
  body : ι
  call : C
  answer : Except ε (A call)

/-- Any body that awaits a call may be the next to have it answered: one call is
one atomic step, and the steps of different bodies fall in any order. -/
inductive Interleaves (H : Answers C A ε σ) :
    Pool ι C A ε α σ → Step ι C A ε → Pool ι C A ε α σ → Prop
  | await {q : Pool ι C A ε α σ} (i : ι) {c : C} {k : Except ε (A c) → Program C A ε α}
      {x : Except ε (A c)} {t : σ} (hi : q.bodies i = .await c k) (hc : H c q.state x t) :
      Interleaves H q ⟨i, c, x⟩ ⟨Function.update q.bodies i (k x), t⟩

def Completed (p : Program C A ε α) : Prop := (∃ a, p = .done a) ∨ ∃ e, p = .reject e

instance (p : Program C A ε α) : Decidable (Completed p) :=
  match p with
  | .done a => isTrue (.inl ⟨a, rfl⟩)
  | .reject e => isTrue (.inr ⟨e, rfl⟩)
  | .await _ _ => isFalse (by rintro (⟨a, ha⟩ | ⟨e, he⟩) <;> contradiction)

abbrev Schedule (ι C : Type) (A : C → Type) (ε α σ : Type) :=
  List (Transition (Pool ι C A ε α σ) (Step ι C A ε))

variable {H : Answers C A ε σ} {P : Protocol C A ε M} {F : M → Except ε α → Prop}
  {q₀ q : Pool ι C A ε α σ} {tr : Schedule ι C A ε α σ}

/-- Every body of a pool keeps to a protocol, each in its own mode, and the modes
stay tied to the shared state. Only the body that is answered changes its mode. -/
theorem interleaves_follows {J : Schedule ι C A ε α σ → (ι → M) → σ → Prop}
    {G : Transition (Pool ι C A ε α σ) (Step ι C A ε) → Prop} {m : ι → M}
    (hbodies : ∀ i, Follows P F (m i) (q₀.bodies i)) (hinit : J [] m q₀.state)
    (hstep : ∀ {tr modes q i c x q'}, P.allows (modes i) c → J tr modes q.state →
      H c q.state x q'.state → G ⟨q, ⟨i, c, x⟩, q'⟩ →
      P.expects (modes i) c x ∧
        J (tr ++ [⟨q, ⟨i, c, x⟩, q'⟩]) (Function.update modes i (P.next (modes i) c x)) q'.state)
    (hrun : Run (Interleaves H) q₀ tr q) (hG : ∀ e ∈ tr, G e) :
    ∃ modes, (∀ i, Follows P F (modes i) (q.bodies i)) ∧ J tr modes q.state := by
  refine run_invariant (I := fun tr (q : Pool ι C A ε α σ) =>
    ∃ modes, (∀ i, Follows P F (modes i) (q.bodies i)) ∧ J tr modes q.state) (G := G)
    ⟨m, hbodies, hinit⟩ ?_ hrun hG
  rintro tr q l q' - ⟨modes, hf, hJ⟩ hq hg
  obtain ⟨i, hi, hc⟩ := hq
  have hi' := hf i
  rw [hi] at hi'
  obtain ⟨hx, hJ'⟩ := hstep hi'.1 hJ hc hg
  refine ⟨_, fun j => ?_, hJ'⟩
  by_cases hj : j = i
  · subst hj
    simpa using hi'.2 _ hx
  · simpa [hj] using hf j

/-- The bodies may also keep to protocols of their own. -/
theorem interleaves_indexed {P : ι → Protocol C A ε M} {F : ι → M → Except ε α → Prop}
    {J : Schedule ι C A ε α σ → (ι → M) → σ → Prop}
    {G : Transition (Pool ι C A ε α σ) (Step ι C A ε) → Prop} {m : ι → M}
    (hbodies : ∀ i, Follows (P i) (F i) (m i) (q₀.bodies i)) (hinit : J [] m q₀.state)
    (hstep : ∀ {tr modes q i c x q'}, (P i).allows (modes i) c → J tr modes q.state →
      H c q.state x q'.state → G ⟨q, ⟨i, c, x⟩, q'⟩ →
      (P i).expects (modes i) c x ∧ J (tr ++ [⟨q, ⟨i, c, x⟩, q'⟩])
        (Function.update modes i ((P i).next (modes i) c x)) q'.state)
    (hrun : Run (Interleaves H) q₀ tr q) (hG : ∀ e ∈ tr, G e) :
    ∃ modes, (∀ i, Follows (P i) (F i) (modes i) (q.bodies i)) ∧ J tr modes q.state := by
  suffices h : ∃ modes : ι → ι × M, (∀ i, Follows (indexed P) (fun m x => F m.1 m.2 x) (modes i)
      (q.bodies i)) ∧ (∀ i, (modes i).1 = i) ∧ J tr (fun i => (modes i).2) q.state by
    obtain ⟨modes, hf, hown, hJ⟩ := h
    refine ⟨fun i => (modes i).2, fun i => ?_, hJ⟩
    have hi := follows_of_indexed (hf i)
    rwa [hown i] at hi
  refine interleaves_follows (m := fun i => (i, m i))
    (J := fun tr modes s => (∀ i, (modes i).1 = i) ∧ J tr (fun i => (modes i).2) s)
    (fun i => follows_indexed (hbodies i)) ⟨fun _ => rfl, hinit⟩ ?_ hrun hG
  rintro tr modes q i c x q' hallows ⟨hown, hJ⟩ hc hg
  change (P (modes i).1).allows (modes i).2 c at hallows
  rw [hown i] at hallows
  obtain ⟨hexpects, hJ'⟩ := hstep hallows hJ hc hg
  have hnext : (fun j => (Function.update modes i ((indexed P).next (modes i) c x) j).2) =
      Function.update (fun j => (modes j).2) i ((P i).next (modes i).2 c x) := by
    funext j
    by_cases hj : j = i
    · subst hj
      simp [indexed, hown]
    · simp [hj]
  refine ⟨?_, fun j => ?_, hnext ▸ hJ'⟩
  · change (P (modes i).1).expects (modes i).2 c x
    rwa [hown i]
  · by_cases hj : j = i
    · subst hj
      simp [indexed, hown]
    · simp [hj, hown]

/-- Each body makes calls of a kind of its own. -/
theorem interleaves_calls {Q : ι → C → Prop} (hbodies : ∀ i, Issues (Q i) (q₀.bodies i))
    (hrun : Run (Interleaves H) q₀ tr q) : ∀ e ∈ tr, Q e.label.body e.label.call := by
  suffices h : (∀ i, Issues (Q i) (q.bodies i)) ∧ ∀ e ∈ tr, Q e.label.body e.label.call from h.2
  refine run_invariant (I := fun tr (q : Pool ι C A ε α σ) =>
    (∀ i, Issues (Q i) (q.bodies i)) ∧ ∀ e ∈ tr, Q e.label.body e.label.call) (G := fun _ => True)
    ⟨hbodies, List.forall_mem_nil _⟩ ?_ hrun fun _ _ => trivial
  rintro tr q l q' - ⟨hf, hQ⟩ hq -
  obtain ⟨i, hi, hc⟩ := hq
  have hi' := hf i
  rw [hi] at hi'
  refine ⟨fun j => ?_, ?_⟩
  · by_cases hj : j = i
    · subst hj
      have hk := hi'.2
      simp only [Function.update_self]
      exact hk _ trivial
    · simpa [hj] using hf j
  · intro e he
    obtain he | he := List.mem_append.mp he
    · exact hQ e he
    · cases List.mem_singleton.mp he
      exact hi'.1

/-- Answer the bodies in the given order by a function: the interpreter of closed
examples. A turn of a body that has completed passes. -/
def interleave (answer : (c : C) → σ → Except ε (A c) × σ) (q : Pool ι C A ε α σ) :
    List ι → Schedule ι C A ε α σ × Pool ι C A ε α σ
  | [] => ([], q)
  | i :: is =>
    match q.bodies i with
    | .await c k =>
      let q' : Pool ι C A ε α σ :=
        ⟨Function.update q.bodies i (k (answer c q.state).1), (answer c q.state).2⟩
      let rest := interleave answer q' is
      (⟨q, ⟨i, c, (answer c q.state).1⟩, q'⟩ :: rest.1, rest.2)
    | _ => interleave answer q is

theorem interleave_run {answer : (c : C) → σ → Except ε (A c) × σ}
    (hanswer : ∀ c s, H c s (answer c s).1 (answer c s).2) (q : Pool ι C A ε α σ) (is : List ι) :
    Run (Interleaves H) q (interleave answer q is).1 (interleave answer q is).2 := by
  induction is generalizing q with
  | nil => exact .nil
  | cons i is ih =>
    cases hi : q.bodies i with
    | done a =>
      simp only [interleave, hi]
      exact ih q
    | reject e =>
      simp only [interleave, hi]
      exact ih q
    | await c k =>
      simp only [interleave, hi]
      exact run_cons (e := ⟨q, _, _⟩) (.await i hi (hanswer c q.state)) (ih _)

end SpotQueue.Awaits.AsyncPool
