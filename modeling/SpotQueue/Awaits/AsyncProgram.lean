import Mathlib.Data.List.Forall2

namespace SpotQueue.Awaits.AsyncProgram

/-- An asynchronous function body: it returns, rejects, or awaits one call of
its environment and goes on with the answer, which is a value or a rejection. -/
inductive Program (C : Type) (A : C → Type) (ε α : Type) : Type
  | done (a : α)
  | reject (e : ε)
  | await (c : C) (k : Except ε (A c) → Program C A ε α)

variable {C : Type} {A : C → Type} {ε α β γ σ : Type}

def bind : Program C A ε α → (α → Program C A ε β) → Program C A ε β
  | .done a, f => f a
  | .reject e, _ => .reject e
  | .await c k, f => .await c (fun x => bind (k x) f)

def attempt : Program C A ε α → (ε → Program C A ε α) → Program C A ε α
  | .done a, _ => .done a
  | .reject e, h => h e
  | .await c k, h => .await c (fun x => attempt (k x) h)

instance : Monad (Program C A ε) where
  pure := .done
  bind := bind

instance : MonadExcept ε (Program C A ε) where
  throw := .reject
  tryCatch := attempt

def settle : Except ε α → Program C A ε α
  | .ok a => .done a
  | .error e => .reject e

def call (c : C) : Program C A ε (A c) := .await c settle

variable {C' : Type} {A' : C' → Type}

/-- Go on with whatever the body settles on. -/
def observe : Program C A ε α → (Except ε α → Program C A ε β) → Program C A ε β
  | .done a, f => f (.ok a)
  | .reject e, f => f (.error e)
  | .await c k, f => .await c (fun x => observe (k x) f)

/-- Put a body in the place of every call: calls of one environment made out of
calls of another. -/
def expand (f : (c : C) → Program C' A' ε (A c)) : Program C A ε α → Program C' A' ε α
  | .done a => .done a
  | .reject e => .reject e
  | .await c k => observe (f c) fun x => expand f (k x)

/-- Start the body for every item and wait for all of them, in the list's order. -/
def gather (f : β → Program C A ε γ) : List β → Program C A ε (List γ)
  | [] => pure []
  | b :: bs => do
    let c ← f b
    let cs ← gather f bs
    pure (c :: cs)

theorem bind_assoc (p : Program C A ε α) (f : α → Program C A ε β) (g : β → Program C A ε γ) :
    p >>= f >>= g = p >>= fun a => f a >>= g := by
  induction p with
  | done a => rfl
  | reject e => rfl
  | await c k ih => exact congrArg (Program.await c) (funext ih)

structure Event (C : Type) (A : C → Type) (ε σ : Type) where
  before : σ
  call : C
  answer : Except ε (A call)
  after : σ

abbrev Answers (C : Type) (A : C → Type) (ε σ : Type) :=
  (c : C) → σ → Except ε (A c) → σ → Prop

/-- One execution of a body, alone, against an environment that may answer
each call in several ways. The events are its calls in order. -/
inductive Traces (H : Answers C A ε σ) :
    Program C A ε α → σ → List (Event C A ε σ) → Except ε α → σ → Prop
  | done (a : α) (s : σ) : Traces H (.done a) s [] (.ok a) s
  | reject (e : ε) (s : σ) : Traces H (.reject e) s [] (.error e) s
  | await {c : C} {k : Except ε (A c) → Program C A ε α} {s u t : σ} {x : Except ε (A c)}
      {tr : List (Event C A ε σ)} {r : Except ε α} (hc : H c s x u) (hk : Traces H (k x) u tr r t) :
      Traces H (.await c k) s (⟨s, c, x, u⟩ :: tr) r t

def Executes (H : Answers C A ε σ) (p : Program C A ε α) (s : σ) (r : Except ε α) (t : σ) : Prop :=
  ∃ tr, Traces H p s tr r t

variable {H : Answers C A ε σ}

theorem executes_pure {a : α} {s t : σ} {r : Except ε α} :
    Executes H (pure a) s r t ↔ r = .ok a ∧ t = s := by
  constructor
  · rintro ⟨tr, h⟩
    cases h
    exact ⟨rfl, rfl⟩
  · rintro ⟨rfl, rfl⟩
    exact ⟨[], .done a t⟩

theorem executes_throw {e : ε} {s t : σ} {r : Except ε α} :
    Executes H (throw e) s r t ↔ r = .error e ∧ t = s := by
  constructor
  · rintro ⟨tr, h⟩
    cases h
    exact ⟨rfl, rfl⟩
  · rintro ⟨rfl, rfl⟩
    exact ⟨[], .reject e t⟩

theorem executes_await {c : C} {k : Except ε (A c) → Program C A ε α} {s t : σ} {r : Except ε α} :
    Executes H (.await c k) s r t ↔ ∃ x u, H c s x u ∧ Executes H (k x) u r t := by
  constructor
  · rintro ⟨tr, h⟩
    cases h with
    | await hc hk => exact ⟨_, _, hc, _, hk⟩
  · rintro ⟨x, u, hc, tr, hk⟩
    exact ⟨_, .await hc hk⟩

theorem executes_settle {x : Except ε α} {s t : σ} {r : Except ε α} :
    Executes H (settle x) s r t ↔ r = x ∧ t = s := by
  cases x with
  | ok a => exact executes_pure
  | error e => exact executes_throw

theorem executes_call {c : C} {s t : σ} {r : Except ε (A c)} :
    Executes H (call c) s r t ↔ H c s r t := by
  rw [call, executes_await]
  constructor
  · rintro ⟨x, u, hc, hk⟩
    obtain ⟨hr, ht⟩ := executes_settle.mp hk
    rwa [hr, ht]
  · intro h
    exact ⟨r, t, h, executes_settle.mpr ⟨rfl, rfl⟩⟩

theorem traces_bind {p : Program C A ε α} {f : α → Program C A ε β} {s t : σ}
    {tr : List (Event C A ε σ)} {r : Except ε β} (h : Traces H (p >>= f) s tr r t) :
    (∃ a u tr₁ tr₂, tr = tr₁ ++ tr₂ ∧ Traces H p s tr₁ (.ok a) u ∧ Traces H (f a) u tr₂ r t) ∨
      ∃ e, r = .error e ∧ Traces H p s tr (.error e) t := by
  induction p generalizing s tr with
  | done a => exact .inl ⟨a, s, [], tr, rfl, .done a s, h⟩
  | reject e =>
    cases h with
    | reject => exact .inr ⟨e, rfl, .reject e _⟩
  | await c k ih =>
    cases h with
    | await hc hk =>
      obtain ⟨a, u, tr₁, tr₂, rfl, hp, hf⟩ | ⟨e, rfl, hp⟩ := ih _ hk
      · exact .inl ⟨a, u, _, tr₂, rfl, .await hc hp, hf⟩
      · exact .inr ⟨e, rfl, .await hc hp⟩

theorem traces_map {f : α → β} {p : Program C A ε α} {s t : σ} {tr : List (Event C A ε σ)}
    {r : Except ε β} (h : Traces H (f <$> p) s tr r t) :
    ∃ x, Traces H p s tr x t ∧ r = x.map f := by
  obtain ⟨a, u, tr₁, tr₂, rfl, hp, hf⟩ | ⟨e, rfl, hp⟩ := traces_bind h
  · cases hf
    exact ⟨.ok a, by simpa using hp, rfl⟩
  · exact ⟨.error e, hp, rfl⟩

theorem traces_call {c : C} {s t : σ} {tr : List (Event C A ε σ)} {r : Except ε (A c)}
    (h : Traces H (call c) s tr r t) : H c s r t ∧ tr = [⟨s, c, r, t⟩] := by
  cases h with
  | @await _ _ _ _ _ x _ _ hc hk =>
    cases x with
    | ok a =>
      cases hk
      exact ⟨hc, rfl⟩
    | error e =>
      cases hk
      exact ⟨hc, rfl⟩

theorem traces_call_bind {c : C} {f : A c → Program C A ε β} {s t : σ}
    {tr : List (Event C A ε σ)} {r : Except ε β} (h : Traces H (call c >>= f) s tr r t) :
    (∃ a u tr', tr = ⟨s, c, .ok a, u⟩ :: tr' ∧ H c s (.ok a) u ∧ Traces H (f a) u tr' r t) ∨
      ∃ e, r = .error e ∧ tr = [⟨s, c, .error e, t⟩] ∧ H c s (.error e) t := by
  obtain ⟨a, u, tr₁, tr₂, rfl, hp, hf⟩ | ⟨e, rfl, hp⟩ := traces_bind h
  · obtain ⟨hc, rfl⟩ := traces_call hp
    exact .inl ⟨a, u, tr₂, rfl, hc, hf⟩
  · obtain ⟨hc, rfl⟩ := traces_call hp
    exact .inr ⟨e, rfl, rfl, hc⟩

theorem executes_bind {p : Program C A ε α} {f : α → Program C A ε β} {s t : σ} {r : Except ε β}
    (h : Executes H (p >>= f) s r t) :
    (∃ a u, Executes H p s (.ok a) u ∧ Executes H (f a) u r t) ∨
      ∃ e, r = .error e ∧ Executes H p s (.error e) t := by
  obtain ⟨tr, h⟩ := h
  obtain ⟨a, u, tr₁, tr₂, -, hp, hf⟩ | ⟨e, rfl, hp⟩ := traces_bind h
  · exact .inl ⟨a, u, ⟨tr₁, hp⟩, ⟨tr₂, hf⟩⟩
  · exact .inr ⟨e, rfl, ⟨tr, hp⟩⟩

theorem executes_call_bind {c : C} {f : A c → Program C A ε β} {s t : σ} {r : Except ε β}
    (h : Executes H (call c >>= f) s r t) :
    (∃ a u, H c s (.ok a) u ∧ Executes H (f a) u r t) ∨ ∃ e, r = .error e ∧ H c s (.error e) t := by
  obtain ⟨a, u, hp, hf⟩ | ⟨e, rfl, hp⟩ := executes_bind h
  · exact .inl ⟨a, u, executes_call.mp hp, hf⟩
  · exact .inr ⟨e, rfl, executes_call.mp hp⟩

theorem executes_bind_ok {p : Program C A ε α} {f : α → Program C A ε β} {s u t : σ} {a : α}
    {r : Except ε β} (hp : Executes H p s (.ok a) u) (hf : Executes H (f a) u r t) :
    Executes H (p >>= f) s r t := by
  obtain ⟨tr, hp⟩ := hp
  generalize hx : (Except.ok a : Except ε α) = x at hp
  induction hp with
  | done b s =>
    cases hx
    exact hf
  | reject e s => cases hx
  | await hc hk ih => exact executes_await.mpr ⟨_, _, hc, ih hf hx⟩

theorem traces_attempt {p : Program C A ε α} {h : ε → Program C A ε α} {s t : σ}
    {tr : List (Event C A ε σ)} {r : Except ε α} (hp : Traces H (tryCatch p h) s tr r t) :
    (∃ a, r = .ok a ∧ Traces H p s tr (.ok a) t) ∨
      ∃ e u tr₁ tr₂, tr = tr₁ ++ tr₂ ∧ Traces H p s tr₁ (.error e) u ∧ Traces H (h e) u tr₂ r t := by
  induction p generalizing s tr with
  | done a =>
    cases hp
    exact .inl ⟨a, rfl, .done a _⟩
  | reject e => exact .inr ⟨e, s, [], tr, rfl, .reject e s, hp⟩
  | await c k ih =>
    cases hp with
    | await hc hk =>
      obtain ⟨a, rfl, ha⟩ | ⟨e, u, tr₁, tr₂, rfl, he, hh⟩ := ih _ hk
      · exact .inl ⟨a, rfl, .await hc ha⟩
      · exact .inr ⟨e, u, _, tr₂, rfl, .await hc he, hh⟩

theorem executes_attempt {p : Program C A ε α} {h : ε → Program C A ε α} {s t : σ}
    {r : Except ε α} (hp : Executes H (tryCatch p h) s r t) :
    (∃ a, r = .ok a ∧ Executes H p s (.ok a) t) ∨
      ∃ e u, Executes H p s (.error e) u ∧ Executes H (h e) u r t := by
  obtain ⟨tr, hp⟩ := hp
  obtain ⟨a, rfl, ha⟩ | ⟨e, u, tr₁, tr₂, -, he, hh⟩ := traces_attempt hp
  · exact .inl ⟨a, rfl, tr, ha⟩
  · exact .inr ⟨e, u, ⟨tr₁, he⟩, ⟨tr₂, hh⟩⟩

theorem executes_bind_pure {p : Program C A ε α} {f : α → β} {s t : σ} {b : β}
    (h : Executes H (p >>= fun a => pure (f a)) s (.ok b) t) :
    ∃ a, b = f a ∧ Executes H p s (.ok a) t := by
  obtain ⟨a, u, hp, hf⟩ | ⟨e, he, -⟩ := executes_bind h
  · obtain ⟨hb, rfl⟩ := executes_pure.mp hf
    exact ⟨a, Except.ok.inj hb, hp⟩
  · cases he

/-- What every single body of a gathering settles on, the gathering lists. -/
theorem executes_gather {f : β → Program C A ε γ} {R : β → γ → Prop}
    (hf : ∀ b c s t, Executes H (f b) s (.ok c) t → R b c) {bs : List β} {cs : List γ} {s t : σ}
    (h : Executes H (gather f bs) s (.ok cs) t) : List.Forall₂ R bs cs := by
  induction bs generalizing s cs with
  | nil =>
    obtain ⟨hcs, -⟩ := executes_pure.mp h
    cases hcs
    exact .nil
  | cons b bs ih =>
    obtain ⟨c, u, hc, h⟩ | ⟨e, he, -⟩ := executes_bind h
    · obtain ⟨ds, rfl, hds⟩ := executes_bind_pure h
      exact .cons (hf b c s u hc) (ih hds)
    · cases he

/-- If no body of a gathering rejects, its events are those of one body after another. -/
theorem traces_gather {f : β → Program C A ε γ} {R : β → List (Event C A ε σ) → Prop}
    (hf : ∀ b s tr x t, Traces H (f b) s tr x t → R b tr ∧ ∃ c, x = .ok c) {bs : List β} {s t : σ}
    {tr : List (Event C A ε σ)} {x : Except ε (List γ)} (h : Traces H (gather f bs) s tr x t) :
    ∃ trs, tr = trs.flatten ∧ List.Forall₂ R bs trs := by
  induction bs generalizing s t tr x with
  | nil =>
    cases h
    exact ⟨[], rfl, .nil⟩
  | cons b bs ih =>
    obtain ⟨c, u, tr₁, tr₂, rfl, hc, h⟩ | ⟨e, -, he⟩ := traces_bind h
    swap
    · obtain ⟨-, c, hc⟩ := hf _ _ _ _ _ he
      cases hc
    have hfirst := (hf _ _ _ _ _ hc).1
    obtain ⟨cs, v, tr₂, tr₃, rfl, hcs, hlast⟩ | ⟨e, -, hcs⟩ := traces_bind h
    · obtain ⟨trs, rfl, htrs⟩ := ih hcs
      cases hlast
      exact ⟨tr₁ :: trs, by simp, .cons hfirst htrs⟩
    · obtain ⟨trs, rfl, htrs⟩ := ih hcs
      exact ⟨tr₁ :: trs, by simp, .cons hfirst htrs⟩

/-- A relation that every answer respects holds between the two ends of every execution. -/
theorem executes_relates {R : σ → σ → Prop} (hrefl : ∀ s, R s s)
    (htrans : ∀ {s u t}, R s u → R u t → R s t) (hstep : ∀ {c s x t}, H c s x t → R s t)
    {p : Program C A ε α} {s t : σ} {r : Except ε α} (h : Executes H p s r t) : R s t := by
  obtain ⟨tr, h⟩ := h
  induction h with
  | done a s => exact hrefl s
  | reject e s => exact hrefl s
  | await hc hk ih => exact htrans (hstep hc) ih

/-- Another environment allows an execution as soon as it allows its answers. -/
theorem traces_mono {H' : Answers C A ε σ} {p : Program C A ε α} {s t : σ}
    {tr : List (Event C A ε σ)} {r : Except ε α} (h : Traces H p s tr r t)
    (hmono : ∀ ev ∈ tr, H ev.call ev.before ev.answer ev.after →
      H' ev.call ev.before ev.answer ev.after) : Traces H' p s tr r t := by
  induction h with
  | done a s => exact .done a s
  | reject e s => exact .reject e s
  | await hc hk ih =>
    obtain ⟨hfirst, hrest⟩ := List.forall_mem_cons.mp hmono
    exact .await (hfirst hc) (ih hrest)

theorem traces_answers {p : Program C A ε α} {s t : σ} {tr : List (Event C A ε σ)} {r : Except ε α}
    (h : Traces H p s tr r t) : ∀ ev ∈ tr, H ev.call ev.before ev.answer ev.after := by
  induction h with
  | done a s => simp
  | reject e s => simp
  | await hc hk ih => exact List.forall_mem_cons.mpr ⟨hc, ih⟩

theorem executes_observe {p : Program C A ε α} {f : Except ε α → Program C A ε β} {s t : σ}
    {r : Except ε β} (h : Executes H (observe p f) s r t) :
    ∃ x u, Executes H p s x u ∧ Executes H (f x) u r t := by
  induction p generalizing s with
  | done a => exact ⟨.ok a, s, executes_pure.mpr ⟨rfl, rfl⟩, h⟩
  | reject e => exact ⟨.error e, s, executes_throw.mpr ⟨rfl, rfl⟩, h⟩
  | await c k ih =>
    obtain ⟨x, u, hc, hk⟩ := executes_await.mp h
    obtain ⟨y, v, hp, hf⟩ := ih x hk
    exact ⟨y, v, executes_await.mpr ⟨x, u, hc, hp⟩, hf⟩

/-- If the body in the place of every call does what the call does, so does the whole. -/
theorem executes_expand {H' : Answers C' A' ε σ} {f : (c : C) → Program C' A' ε (A c)}
    (hf : ∀ {c s x t}, Executes H' (f c) s x t → H c s x t) {p : Program C A ε α} {s t : σ}
    {r : Except ε α} (h : Executes H' (expand f p) s r t) : Executes H p s r t := by
  induction p generalizing s with
  | done a => exact executes_pure.mpr (executes_pure.mp h)
  | reject e => exact executes_throw.mpr (executes_throw.mp h)
  | await c k ih =>
    obtain ⟨x, u, hc, hk⟩ := executes_observe h
    exact executes_await.mpr ⟨x, u, hf hc, ih x hk⟩

/-- Every event of an execution is an answer, given in a state that the events
before it lead to. -/
theorem traces_event {R : σ → σ → Prop} (hrefl : ∀ s, R s s)
    (htrans : ∀ {s u t}, R s u → R u t → R s t) {p : Program C A ε α} {s t : σ} {r : Except ε α}
    {pre post : List (Event C A ε σ)} {ev : Event C A ε σ}
    (hpre : ∀ d ∈ pre, H d.call d.before d.answer d.after → R d.before d.after)
    (h : Traces H p s (pre ++ ev :: post) r t) :
    R s ev.before ∧ H ev.call ev.before ev.answer ev.after := by
  induction pre generalizing p s with
  | nil =>
    cases h with
    | await hc hk => exact ⟨hrefl s, hc⟩
  | cons d pre ih =>
    cases h with
    | await hc hk =>
      have hrest := ih (fun e he => hpre e (List.mem_cons_of_mem _ he)) hk
      exact ⟨htrans (hpre _ List.mem_cons_self hc) hrest.1, hrest.2⟩

/-- Answer every call by a function: the interpreter of closed examples. -/
def run (answer : (c : C) → σ → Except ε (A c) × σ) :
    Program C A ε α → σ → List (Event C A ε σ) × Except ε α × σ
  | .done a, s => ([], .ok a, s)
  | .reject e, s => ([], .error e, s)
  | .await c k, s =>
    let rest := run answer (k (answer c s).1) (answer c s).2
    (⟨s, c, (answer c s).1, (answer c s).2⟩ :: rest.1, rest.2)

theorem run_traces {answer : (c : C) → σ → Except ε (A c) × σ}
    (hanswer : ∀ c s, H c s (answer c s).1 (answer c s).2) (p : Program C A ε α) (s : σ) :
    Traces H p s (run answer p s).1 (run answer p s).2.1 (run answer p s).2.2 := by
  induction p generalizing s with
  | done a => exact .done a s
  | reject e => exact .reject e s
  | await c k ih => exact .await (hanswer c s) (ih _ _)

variable {answer : (c : C) → σ → Except ε (A c) × σ}

theorem run_bind (p : Program C A ε α) (f : α → Program C A ε β) (s : σ) :
    (run answer (p >>= f) s).2 = match (run answer p s).2 with
      | (.ok a, t) => (run answer (f a) t).2
      | (.error e, t) => (.error e, t) := by
  induction p generalizing s with
  | done a => rfl
  | reject e => rfl
  | await c k ih => exact ih _ _

theorem run_map (f : α → β) (p : Program C A ε α) (s : σ) :
    (run answer (f <$> p) s).2 = ((run answer p s).2.1.map f, (run answer p s).2.2) := by
  induction p generalizing s with
  | done a => rfl
  | reject e => rfl
  | await c k ih => exact ih _ _

theorem run_attempt (p : Program C A ε α) (h : ε → Program C A ε α) (s : σ) :
    (run answer (tryCatch p h) s).2 = match (run answer p s).2 with
      | (.ok a, t) => (.ok a, t)
      | (.error e, t) => (run answer (h e) t).2 := by
  induction p generalizing s with
  | done a => rfl
  | reject e => rfl
  | await c k ih => exact ih _ _

end SpotQueue.Awaits.AsyncProgram
