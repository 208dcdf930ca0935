import SpotQueue.Awaits.AsyncProjection

namespace SpotQueue.Awaits.AsyncTurns

open SpotQueue.Awaits.AsyncProgram SpotQueue.Awaits.AsyncProtocol SpotQueue.Awaits.LabelledRun
open SpotQueue.Awaits.AsyncPool SpotQueue.Awaits.AsyncProjection

variable {ι C : Type} {A : C → Type} {ε α σ τ : Type} {H : Answers C A ε σ}

/-- No body is answered while another is under way. -/
def InTurn (tr : Schedule ι C A ε α σ) : Prop :=
  tr.Pairwise fun e f => f.label.body = e.label.body ∨ Completed (f.before.bodies e.label.body)

/-- One body from its start to its end, the calls it made and how it ended. -/
structure Turn (ι C : Type) (A : C → Type) (ε α σ : Type) where
  body : ι
  calls : List (Event C A ε σ)
  result : Except ε α

def TakesTurn (H : Answers C A ε σ) (p : ι → Program C A ε α) (s : σ) (l : Turn ι C A ε α σ) (t : σ) :
    Prop := Traces H (p l.body) s l.calls l.result t

theorem completed_settle (x : Except ε α) : Completed (C := C) (A := A) (settle x) := by
  cases x with
  | ok a => exact .inl ⟨a, rfl⟩
  | error e => exact .inr ⟨e, rfl⟩

theorem settle_of_completed {p : Program C A ε α} (h : Completed p) : ∃ x, p = settle x := by
  obtain ⟨a, rfl⟩ | ⟨e, rfl⟩ := h
  · exact ⟨.ok a, rfl⟩
  · exact ⟨.error e, rfl⟩

theorem traces_settle (x : Except ε α) (s : σ) : Traces H (settle x) s [] x s := by
  cases x with
  | ok a => exact .done a s
  | error e => exact .reject e s

theorem not_completed_await {c : C} {k : Except ε (A c) → Program C A ε α} :
    ¬ Completed (.await c k) := by
  rintro (⟨a, ha⟩ | ⟨e, he⟩)
  · cases ha
  · cases he

/-- The bodies that have had their turn, in order, and the one whose turn it is. -/
structure Midway (H : Answers C A ε σ) (p : ι → Program C A ε α) (s : σ) (tr : Schedule ι C A ε α σ)
    (q : Pool ι C A ε α σ) (ts : List (Transition σ (Turn ι C A ε α σ))) (i : ι) : Prop where
  turn : ∃ u calls, Run (TakesTurn H p) s ts u ∧ ∀ {rest r t},
    Traces H (q.bodies i) q.state rest r t → Traces H (p i) u (calls ++ rest) r t
  ended : ∀ t ∈ ts, q.bodies t.label.body = settle t.label.result
  waiting : ∀ j, j ∉ tr.map (·.label.body) → q.bodies j = p j
  order : (ts.map (·.label.body) ++ [i]).Sublist (tr.map (·.label.body))
  once : (ts.map (·.label.body) ++ [i]).Nodup
  all : ∀ j ∈ tr.map (·.label.body), j ∈ ts.map (·.label.body) ++ [i]

/-- Bodies that have their turns among others have them on their own. -/
theorem mirrored_inTurn {own : ι → Prop} {R : Likeness C A ε} {tr : Schedule ι C A ε α σ}
    {tr' : Schedule {i // own i} C A ε α τ} (h : List.Forall₂ (Mirrored R) tr tr') (hturn : InTurn tr) :
    InTurn tr' := by
  induction h with
  | nil => exact .nil
  | cons he htr ih =>
    obtain ⟨hfirst, hrest⟩ := List.pairwise_cons.mp hturn
    refine List.pairwise_cons.mpr ⟨fun f' hf' => ?_, ih hrest⟩
    obtain ⟨f, hf, hff'⟩ := forall₂_mem htr hf'
    have hef := hfirst f hf
    cases he
    cases hff'
    exact hef.imp_left Subtype.ext

/-- An execution can be had in other surroundings that match each of its answers. -/
theorem traces_simulate {H' : Answers C A ε τ} {Q : C → Prop} {sim : σ → τ → Prop}
    {p : Program C A ε α} (hp : Issues Q p)
    (hsim : ∀ {c s x u t}, Q c → sim s t → H c s x u → ∃ v, H' c t x v ∧ sim u v) {s u : σ} {t : τ}
    {calls : List (Event C A ε σ)} {r : Except ε α} (hinit : sim s t) (h : Traces H p s calls r u) :
    ∃ calls' v, Traces H' p t calls' r v ∧ sim u v := by
  induction h generalizing t with
  | done a s => exact ⟨[], t, .done a t, hinit⟩
  | reject e s => exact ⟨[], t, .reject e t, hinit⟩
  | await hc hk ih =>
    obtain ⟨v, hc', hnext⟩ := hsim hp.1 hinit hc
    obtain ⟨calls', v', hk', hend⟩ := ih (hp.2 _ trivial) hnext
    exact ⟨_, v', .await hc' hk', hend⟩

variable {p : ι → Program C A ε α} {s : σ} {tr : Schedule ι C A ε α σ} {q q' : Pool ι C A ε α σ}
  {ts : List (Transition σ (Turn ι C A ε α σ))} {i j : ι} {c : C}
  {k : Except ε (A c) → Program C A ε α} {x : Except ε (A c)}

/-- Once the body has completed, its turn is over. -/
theorem midway_over (h : Midway H p s tr q ts i) (hdone : Completed (q.bodies i)) :
    ∃ ts', Run (TakesTurn H p) s ts' q.state ∧ (∀ t ∈ ts', q.bodies t.label.body = settle t.label.result) ∧
      ts'.map (·.label.body) = ts.map (·.label.body) ++ [i] := by
  obtain ⟨y, hy⟩ := settle_of_completed hdone
  obtain ⟨u, calls, hrun, hturn⟩ := h.turn
  have htraces := hturn (hy ▸ traces_settle y q.state)
  rw [List.append_nil] at htraces
  have hlast : TakesTurn H p u ⟨i, calls, y⟩ q.state := htraces
  refine ⟨_, .snoc hrun hlast, ?_, by simp⟩
  intro t ht
  obtain ht | ht := List.mem_append.mp ht
  · exact h.ended t ht
  · cases List.mem_singleton.mp ht
    exact hy

/-- The first body to be answered has the first turn. -/
theorem midway_first (hq : q = ⟨p, s⟩) (hi : q.bodies i = .await c k) (hc : H c q.state x q'.state)
    (hself : q'.bodies i = k x) (hothers : ∀ j ≠ i, q'.bodies j = q.bodies j) :
    Midway H p s [⟨q, ⟨i, c, x⟩, q'⟩] q' [] i where
  turn := by
    subst hq
    refine ⟨s, [⟨s, c, x, q'.state⟩], .nil, fun hrest => ?_⟩
    rw [hself] at hrest
    change p i = .await c k at hi
    rw [hi]
    exact .await hc hrest
  ended := List.forall_mem_nil _
  waiting j hj := (hothers j (by simpa using hj)).trans (hq ▸ rfl)
  order := .refl _
  once := by simp
  all j hj := hj

/-- The body whose turn it is goes on. -/
theorem midway_again (h : Midway H p s tr q ts i) (hi : q.bodies i = .await c k)
    (hc : H c q.state x q'.state) (hself : q'.bodies i = k x)
    (hothers : ∀ j ≠ i, q'.bodies j = q.bodies j) :
    Midway H p s (tr ++ [⟨q, ⟨i, c, x⟩, q'⟩]) q' ts i where
  turn := by
    obtain ⟨u, calls, hrun, hturn⟩ := h.turn
    refine ⟨u, calls ++ [⟨q.state, c, x, q'.state⟩], hrun, fun {rest r t} hrest => ?_⟩
    rw [hself] at hrest
    rw [List.append_assoc]
    exact hturn (hi ▸ .await hc hrest)
  ended d hd := by
    refine (hothers _ ?_).trans (h.ended d hd)
    rintro rfl
    exact (List.nodup_append.mp h.once).2.2 _ (List.mem_map_of_mem hd) _ List.mem_cons_self rfl
  waiting j hj := by
    rw [List.map_append, List.mem_append, not_or] at hj
    exact (hothers j (by simpa using hj.2)).trans (h.waiting j hj.1)
  order := by
    rw [List.map_append]
    exact h.order.trans (List.sublist_append_left _ _)
  once := h.once
  all j hj := by
    rw [List.map_append, List.mem_append, List.map_singleton, List.mem_singleton] at hj
    obtain hj | rfl := hj
    · exact h.all j hj
    · exact List.mem_append_right _ List.mem_cons_self

/-- When its turn is over, the next one is that of a body not answered before. -/
theorem midway_next (h : Midway H p s tr q ts i) (hdone : Completed (q.bodies i))
    (hj : q.bodies j = .await c k) (hc : H c q.state x q'.state) (hself : q'.bodies j = k x)
    (hothers : ∀ i ≠ j, q'.bodies i = q.bodies i) :
    ∃ ts', Midway H p s (tr ++ [⟨q, ⟨j, c, x⟩, q'⟩]) q' ts' j := by
  obtain ⟨ts', hrun, hended, hbodies⟩ := midway_over h hdone
  have hother : ∀ d ∈ ts', d.label.body ≠ j := by
    rintro d hd rfl
    exact not_completed_await (hj ▸ hended d hd ▸ completed_settle _)
  have hnew : j ∉ ts'.map (·.label.body) := by
    intro hmem
    obtain ⟨d, hd, hdj⟩ := List.mem_map.mp hmem
    exact hother d hd hdj
  refine ⟨ts', ?_, fun d hd => ?_, fun i hi => ?_, ?_, ?_, fun i hi => ?_⟩
  · refine ⟨q.state, [⟨q.state, c, x, q'.state⟩], hrun, fun hrest => ?_⟩
    rw [hself] at hrest
    rw [← h.waiting j fun hmem => hnew (hbodies ▸ h.all j hmem), hj]
    exact .await hc hrest
  · exact (hothers _ (hother d hd)).trans (hended d hd)
  · rw [List.map_append, List.mem_append, not_or] at hi
    exact (hothers i (by simpa using hi.2)).trans (h.waiting i hi.1)
  · rw [List.map_append, hbodies]
    exact h.order.append (.refl _)
  · rw [List.nodup_append]
    refine ⟨hbodies ▸ h.once, by simp, ?_⟩
    rintro a ha b hb rfl
    rw [List.mem_singleton] at hb
    exact hnew (hb ▸ ha)
  · rw [List.map_append, List.mem_append] at hi
    rw [hbodies, List.mem_append]
    exact hi.imp_left (h.all i)

variable [DecidableEq ι]

/-- Only the body that is answered goes on. -/
theorem interleaves_step {l : Step ι C A ε} (h : Interleaves H q l q') :
    ∃ k, q.bodies l.body = .await l.call k ∧ H l.call q.state l.answer q'.state ∧
      q'.bodies l.body = k l.answer ∧ ∀ j ≠ l.body, q'.bodies j = q.bodies j := by
  obtain ⟨i, hi, hc⟩ := h
  exact ⟨_, hi, hc, Function.update_self _ _ _, fun j hj => Function.update_of_ne hj _ _⟩

/-- Where no two bodies are under way at once, they run one after the other. -/
theorem interleaves_midway (hrun : Run (Interleaves H) ⟨p, s⟩ tr q) (hturn : InTurn tr)
    (htr : tr ≠ []) : ∃ ts i, Midway H p s tr q ts i := by
  induction hrun with
  | nil => exact absurd rfl htr
  | @snoc tr q q' l hrun hstep ih =>
    obtain ⟨hbefore, -, hlast⟩ := List.pairwise_append.mp hturn
    obtain ⟨k, hj, hc, hself, hothers⟩ := interleaves_step hstep
    obtain ⟨j, c, x⟩ := l
    by_cases hempty : tr = []
    · subst hempty
      exact ⟨[], j, midway_first (run_empty hrun) hj hc hself hothers⟩
    obtain ⟨ts, i, hmid⟩ := ih hbefore hempty
    by_cases hij : j = i
    · subst hij
      exact ⟨ts, j, midway_again hmid hj hc hself hothers⟩
    · obtain ⟨e, he, hei⟩ :=
        List.mem_map.mp (hmid.order.subset (List.mem_append_right _ List.mem_cons_self))
      have hdone : Completed (q.bodies i) := by
        obtain hsame | hdone := hlast e he _ List.mem_cons_self
        · exact absurd (hsame.trans hei) hij
        · exact hei ▸ hdone
      obtain ⟨ts', hnext⟩ := midway_next hmid hdone hj hc hself hothers
      exact ⟨ts', j, hnext⟩

/-- A schedule of turns has the effect of one body after the other, each of them alone. -/
theorem interleaves_turns (hrun : Run (Interleaves H) ⟨p, s⟩ tr q) (hturn : InTurn tr)
    (hdone : ∀ e ∈ tr, Completed (q.bodies e.label.body)) :
    ∃ ts, Run (TakesTurn H p) s ts q.state ∧ (∀ t ∈ ts, q.bodies t.label.body = settle t.label.result) ∧
      (ts.map (·.label.body)).Nodup ∧ (ts.map (·.label.body)).Sublist (tr.map (·.label.body)) ∧
      ∀ i ∈ tr.map (·.label.body), i ∈ ts.map (·.label.body) := by
  by_cases hempty : tr = []
  · subst hempty
    rw [run_empty hrun]
    exact ⟨[], .nil, List.forall_mem_nil _, List.nodup_nil, .refl _, List.forall_mem_nil _⟩
  obtain ⟨ts, i, hmid⟩ := interleaves_midway hrun hturn hempty
  obtain ⟨e, he, hei⟩ :=
    List.mem_map.mp (hmid.order.subset (List.mem_append_right _ List.mem_cons_self))
  obtain ⟨ts', hrun', hended, hbodies⟩ := midway_over hmid (hei ▸ hdone e he)
  exact ⟨ts', hrun', hended, hbodies ▸ hmid.once, hbodies ▸ hmid.order, hbodies ▸ hmid.all⟩

end SpotQueue.Awaits.AsyncTurns
