import SpotQueue.Awaits.AsyncProgram

namespace SpotQueue.Awaits.AsyncProtocol

open SpotQueue.Awaits.AsyncProgram

variable {C : Type} {A : C → Type} {ε α β γ σ M : Type}

/-- A typestate discipline: in each mode some calls are allowed, and the answer
to a call decides the mode that follows. Answers that are not expected in a
mode lead nowhere. -/
structure Protocol (C : Type) (A : C → Type) (ε M : Type) where
  allows : M → C → Prop
  expects : M → (c : C) → Except ε (A c) → Prop
  next : M → (c : C) → Except ε (A c) → M

/-- Every path of the body keeps to the protocol and ends as `fin` says. -/
def Follows (P : Protocol C A ε M) (fin : M → Except ε α → Prop) : M → Program C A ε α → Prop
  | m, .done a => fin m (.ok a)
  | m, .reject e => fin m (.error e)
  | m, .await c k => P.allows m c ∧ ∀ x, P.expects m c x → Follows P fin (P.next m c x) (k x)

variable {P : Protocol C A ε M} {fin : M → Except ε α → Prop} {m : M}

theorem follows_settle {x : Except ε α} (h : fin m x) : Follows P fin m (settle x) := by
  cases x <;> exact h

theorem follows_call {c : C} {fin : M → Except ε (A c) → Prop} (hc : P.allows m c)
    (hfin : ∀ x, P.expects m c x → fin (P.next m c x) x) : Follows P fin m (call c) :=
  ⟨hc, fun x hx => follows_settle (hfin x hx)⟩

theorem follows_mono {fin' : M → Except ε α → Prop} (himp : ∀ m x, fin m x → fin' m x)
    {p : Program C A ε α} (h : Follows P fin m p) : Follows P fin' m p := by
  induction p generalizing m with
  | done a => exact himp m _ h
  | reject e => exact himp m _ h
  | await c k ih => exact ⟨h.1, fun x hx => ih x (h.2 x hx)⟩

theorem follows_bind {K : M → Except ε α → Prop} {fin : M → Except ε β → Prop}
    {p : Program C A ε α} {f : α → Program C A ε β} (hp : Follows P K m p)
    (hf : ∀ m a, K m (.ok a) → Follows P fin m (f a))
    (he : ∀ m e, K m (.error e) → fin m (.error e)) : Follows P fin m (p >>= f) := by
  induction p generalizing m with
  | done a => exact hf m a hp
  | reject e => exact he m e hp
  | await c k ih => exact ⟨hp.1, fun x hx => ih x (hp.2 x hx)⟩

theorem follows_call_bind {c : C} {fin : M → Except ε β → Prop} {f : A c → Program C A ε β}
    (hc : P.allows m c)
    (hf : ∀ a, P.expects m c (.ok a) → Follows P fin (P.next m c (.ok a)) (f a))
    (he : ∀ e, P.expects m c (.error e) → fin (P.next m c (.error e)) (.error e)) :
    Follows P fin m (call c >>= f) := by
  refine ⟨hc, fun x hx => ?_⟩
  cases x with
  | ok a => exact hf a hx
  | error e => exact he e hx

/-- What each of its bodies yields, a gathering lists. -/
theorem follows_gather {R : γ → Prop} {f : β → Program C A ε γ} {bs : List β}
    (hf : ∀ b, Follows P (fun m' x => m' = m ∧ ∀ c, x = .ok c → R c) m (f b)) :
    Follows P (fun m' x => m' = m ∧ ∀ cs, x = .ok cs → ∀ c ∈ cs, R c) m (gather f bs) := by
  induction bs with
  | nil =>
    refine ⟨rfl, ?_⟩
    rintro _ ⟨⟩
    simp
  | cons b bs ih =>
    refine follows_bind (hf b) (fun m' c hc => ?_) fun _ _ he => ⟨he.1, by simp⟩
    obtain ⟨rfl, hc⟩ := hc
    refine follows_bind ih (fun m' cs hcs => ?_) fun _ _ he => ⟨he.1, by simp⟩
    obtain ⟨rfl, hcs⟩ := hcs
    refine ⟨rfl, ?_⟩
    rintro _ ⟨⟩
    exact List.forall_mem_cons.mpr ⟨hc c rfl, hcs cs rfl⟩

theorem follows_attempt {K : M → Except ε α → Prop} {p : Program C A ε α}
    {h : ε → Program C A ε α} (hp : Follows P K m p)
    (hok : ∀ m a, K m (.ok a) → fin m (.ok a))
    (he : ∀ m e, K m (.error e) → Follows P fin m (h e)) : Follows P fin m (tryCatch p h) := by
  induction p generalizing m with
  | done a => exact hok m a hp
  | reject e => exact he m e hp
  | await c k ih => exact ⟨hp.1, fun x hx => ih x (hp.2 x hx)⟩

/-- The mode and the state move together: an execution of a body that follows
the protocol ends in a mode that `fin` accepts, still tied to the state. -/
theorem follows_traces {H : Answers C A ε σ} {J : List (Event C A ε σ) → M → σ → Prop}
    (hstep : ∀ {tr m c s x t}, P.allows m c → J tr m s → H c s x t →
      P.expects m c x ∧ J (tr ++ [⟨s, c, x, t⟩]) (P.next m c x) t)
    {p : Program C A ε α} {s t : σ} {l tr : List (Event C A ε σ)} {r : Except ε α}
    (hp : Follows P fin m p) (hJ : J l m s) (h : Traces H p s tr r t) :
    ∃ m', fin m' r ∧ J (l ++ tr) m' t := by
  induction h generalizing m l with
  | done a s => exact ⟨m, hp, by simpa using hJ⟩
  | reject e s => exact ⟨m, hp, by simpa using hJ⟩
  | await hc hk ih =>
    obtain ⟨hx, hJ'⟩ := hstep hp.1 hJ hc
    obtain ⟨m', hfin, hend⟩ := ih (hp.2 _ hx) hJ'
    exact ⟨m', hfin, by simpa using hend⟩

/-- Where all answers are expected, all calls are allowed. -/
theorem follows_calls {P : Protocol C A ε Unit} {fin : Unit → Except ε α → Prop}
    {H : Answers C A ε σ} {p : Program C A ε α} {s t : σ} {tr : List (Event C A ε σ)}
    {r : Except ε α} (hp : Follows P fin () p) (h : Traces H p s tr r t)
    (hexpected : ∀ ev ∈ tr, P.expects () ev.call ev.answer) : ∀ ev ∈ tr, P.allows () ev.call := by
  induction h with
  | done a s => simp
  | reject e s => simp
  | await hc hk ih =>
    obtain ⟨hx, hrest⟩ := List.forall_mem_cons.mp hexpected
    exact List.forall_mem_cons.mpr ⟨hp.1, ih (hp.2 _ hx) hrest⟩

/-- A family of protocols as one: the mode tells which of them it is in. -/
def indexed {κ : Type} (P : κ → Protocol C A ε M) : Protocol C A ε (κ × M) where
  allows m c := (P m.1).allows m.2 c
  expects m c x := (P m.1).expects m.2 c x
  next m c x := (m.1, (P m.1).next m.2 c x)

theorem follows_indexed {κ : Type} {P : κ → Protocol C A ε M} {k : κ}
    {fin : κ → M → Except ε α → Prop} {p : Program C A ε α} (h : Follows (P k) (fin k) m p) :
    Follows (indexed P) (fun m x => fin m.1 m.2 x) (k, m) p := by
  induction p generalizing m with
  | done a => exact h
  | reject e => exact h
  | await c f ih => exact ⟨h.1, fun x hx => ih x (h.2 x hx)⟩

theorem follows_of_indexed {κ : Type} {P : κ → Protocol C A ε M} {n : κ × M}
    {fin : κ → M → Except ε α → Prop} {p : Program C A ε α}
    (h : Follows (indexed P) (fun m x => fin m.1 m.2 x) n p) : Follows (P n.1) (fin n.1) n.2 p := by
  induction p generalizing n with
  | done a => exact h
  | reject e => exact h
  | await c f ih => exact ⟨h.1, fun x hx => ih x (h.2 x hx)⟩

def issuing (Q : C → Prop) : Protocol C A ε Unit := ⟨fun _ c => Q c, fun _ _ _ => True, fun _ _ _ => ()⟩

/-- Whatever it is answered, the body makes only calls of this kind. -/
def Issues (Q : C → Prop) (p : Program C A ε α) : Prop := Follows (issuing Q) (fun _ _ => True) () p

variable {Q : C → Prop}

theorem issues_pure (a : α) : Issues (A := A) (ε := ε) Q (pure a) := trivial

theorem issues_throw (e : ε) : Issues (A := A) (α := α) Q (throw e) := trivial

theorem issues_call {c : C} (hc : Q c) : Issues (A := A) (ε := ε) Q (call c) :=
  follows_call hc fun _ _ => trivial

theorem issues_bind {p : Program C A ε α} {f : α → Program C A ε β} (hp : Issues Q p)
    (hf : ∀ a, Issues Q (f a)) : Issues Q (p >>= f) :=
  follows_bind hp (fun _ a _ => hf a) fun _ _ _ => trivial

theorem issues_attempt {p : Program C A ε α} {h : ε → Program C A ε α} (hp : Issues Q p)
    (hh : ∀ e, Issues Q (h e)) : Issues Q (tryCatch p h) :=
  follows_attempt hp (fun _ _ _ => trivial) fun _ e _ => hh e

theorem issues_gather {f : β → Program C A ε γ} {bs : List β} (hf : ∀ b, Issues Q (f b)) :
    Issues Q (gather f bs) := by
  induction bs with
  | nil => exact trivial
  | cons b bs ih => exact issues_bind (hf b) fun c => issues_bind ih fun cs => issues_pure _

theorem issues_gather_mem {f : β → Program C A ε γ} {bs : List β} (hf : ∀ b ∈ bs, Issues Q (f b)) :
    Issues Q (gather f bs) := by
  induction bs with
  | nil => exact trivial
  | cons b bs ih =>
    obtain ⟨hb, hbs⟩ := List.forall_mem_cons.mp hf
    exact issues_bind hb fun c => issues_bind (ih hbs) fun cs => issues_pure _

theorem issues_any (p : Program C A ε α) : Issues (fun _ => True) p := by
  induction p with
  | done a => trivial
  | reject e => trivial
  | await c k ih => exact ⟨trivial, fun x _ => ih x⟩

theorem issues_mono {Q' : C → Prop} (h : ∀ c, Q c → Q' c) {p : Program C A ε α}
    (hp : Issues Q p) : Issues Q' p := by
  induction p with
  | done a => exact trivial
  | reject e => exact trivial
  | await c k ih => exact ⟨h c hp.1, fun x hx => ih x (hp.2 x hx)⟩

/-- A body whose calls lead from one mode of `I` to another stays within `I`. -/
theorem follows_within {I : M → Prop} {p : Program C A ε α} (hp : Issues Q p)
    (hstay : ∀ m c, I m → Q c → P.allows m c ∧ ∀ x, P.expects m c x → I (P.next m c x)) (hm : I m) :
    Follows P (fun m' _ => I m') m p := by
  induction p generalizing m with
  | done a => exact hm
  | reject e => exact hm
  | await c k ih =>
    have hc := hstay m c hm hp.1
    exact ⟨hc.1, fun x hx => ih x (hp.2 x trivial) (hc.2 x hx)⟩

theorem follows_issues {p : Program C A ε α} (hp : Issues Q p)
    (hstay : ∀ c, Q c → P.allows m c ∧ ∀ x, P.expects m c x → P.next m c x = m) :
    Follows P (fun m' _ => m' = m) m p :=
  follows_within hp (fun _ c hm hc => hm ▸ hstay c hc) rfl

theorem issues_traces {H : Answers C A ε σ} {p : Program C A ε α} (hp : Issues Q p) {s t : σ}
    {tr : List (Event C A ε σ)} {r : Except ε α} (h : Traces H p s tr r t) :
    ∀ e ∈ tr, Q e.call :=
  follows_calls hp h fun _ _ => trivial

theorem issues_executes {H : Answers C A ε σ} {R : σ → σ → Prop} (hrefl : ∀ s, R s s)
    (htrans : ∀ {s u t}, R s u → R u t → R s t)
    (hstep : ∀ {c s x t}, Q c → H c s x t → R s t) {p : Program C A ε α} (hp : Issues Q p)
    {s t : σ} {r : Except ε α} (h : Executes H p s r t) : R s t := by
  obtain ⟨tr, h⟩ := h
  induction h with
  | done a s => exact hrefl s
  | reject e s => exact hrefl s
  | await hc hk ih => exact htrans (hstep hp.1 hc) (ih (hp.2 _ trivial))

/-- Whatever it is answered, the body does not reject. -/
def Resolves (p : Program C A ε α) : Prop :=
  Follows (issuing fun _ => True) (fun _ x => ∃ a, x = .ok a) () p

theorem resolves_pure (a : α) : Resolves (C := C) (A := A) (ε := ε) (pure a) := ⟨a, rfl⟩

theorem resolves_bind {p : Program C A ε α} {f : α → Program C A ε β} (hp : Resolves p)
    (hf : ∀ a, Resolves (f a)) : Resolves (p >>= f) :=
  follows_bind hp (fun _ a _ => hf a) fun _ e he => absurd he (by simp)

theorem resolves_attempt (p : Program C A ε α) {h : ε → Program C A ε α}
    (hh : ∀ e, Resolves (h e)) : Resolves (tryCatch p h) := by
  induction p with
  | done a => exact ⟨a, rfl⟩
  | reject e => exact hh e
  | await c k ih => exact ⟨trivial, fun x _ => ih x⟩

theorem resolves_gather {f : β → Program C A ε γ} {bs : List β} (hf : ∀ b, Resolves (f b)) :
    Resolves (gather f bs) := by
  induction bs with
  | nil => exact resolves_pure _
  | cons b bs ih => exact resolves_bind (hf b) fun c => resolves_bind ih fun cs => resolves_pure _

theorem resolves_executes {H : Answers C A ε σ} {p : Program C A ε α} (hp : Resolves p) {s t : σ}
    {r : Except ε α} (h : Executes H p s r t) : ∃ a, r = .ok a := by
  obtain ⟨tr, h⟩ := h
  induction h with
  | done a s => exact ⟨a, rfl⟩
  | reject e s => exact hp
  | await hc hk ih => exact ih (hp.2 _ trivial)

theorem follows_resolves {p : Program C A ε α} (hp : Follows P fin m p) (hr : Resolves p) :
    Follows P (fun m x => fin m x ∧ ∃ a, x = .ok a) m p := by
  induction p generalizing m with
  | done a => exact ⟨hp, a, rfl⟩
  | reject e => exact ⟨hp, hr⟩
  | await c k ih => exact ⟨hp.1, fun x hx => ih x (hp.2 x hx) (hr.2 x trivial)⟩

/-- Whatever it is answered, what the body returns satisfies `R`. -/
def Yields (R : α → Prop) (p : Program C A ε α) : Prop :=
  Follows (issuing fun _ => True) (fun _ x => ∀ a, x = .ok a → R a) () p

variable {R : α → Prop} {S : β → Prop}

theorem yields_pure {a : α} (h : R a) : Yields (C := C) (A := A) (ε := ε) R (pure a) := by
  rintro _ ⟨⟩
  exact h

theorem yields_throw (e : ε) : Yields (C := C) (A := A) R (throw e) :=
  fun a (h : Except.error e = Except.ok a) => nomatch h

theorem yields_any (p : Program C A ε α) : Yields (fun _ => True) p := by
  induction p with
  | done a => exact fun _ _ => trivial
  | reject e => exact fun _ _ => trivial
  | await c k ih => exact ⟨trivial, fun x _ => ih x⟩

theorem yields_bind {p : Program C A ε α} {f : α → Program C A ε β} (hp : Yields R p)
    (hf : ∀ a, R a → Yields S (f a)) : Yields S (p >>= f) :=
  follows_bind hp (fun _ a ha => hf a (ha a rfl)) fun _ _ _ _ h => nomatch h

theorem yields_then {p : Program C A ε α} {f : α → Program C A ε β}
    (hf : ∀ a, Yields S (f a)) : Yields S (p >>= f) :=
  yields_bind (yields_any p) fun a _ => hf a

theorem follows_yields {p : Program C A ε α} (hp : Follows P fin m p) (hy : Yields R p) :
    Follows P (fun m x => fin m x ∧ ∀ a, x = .ok a → R a) m p := by
  induction p generalizing m with
  | done a => exact ⟨hp, hy⟩
  | reject e => exact ⟨hp, hy⟩
  | await c k ih => exact ⟨hp.1, fun x hx => ih x (hp.2 x hx) (hy.2 x trivial)⟩

theorem yields_executes {H : Answers C A ε σ} {p : Program C A ε α} (hp : Yields R p) {s t : σ}
    {a : α} (h : Executes H p s (.ok a) t) : R a := by
  obtain ⟨tr, h⟩ := h
  generalize hx : Except.ok a = x at h
  induction h with
  | done b s => exact hp a hx.symm
  | reject e s => cases hx
  | await hc hk ih => exact ih (hp.2 _ trivial) hx

def rejecting (W : ε → Prop) : Protocol C A ε Unit :=
  ⟨fun _ _ => True, fun _ _ x => ∀ e, x = .error e → W e, fun _ _ _ => ()⟩

/-- As long as its calls are rejected with errors of this kind only, so is the body. -/
def Rejects (W : ε → Prop) (p : Program C A ε α) : Prop :=
  Follows (rejecting W) (fun _ x => ∀ e, x = .error e → W e) () p

variable {W : ε → Prop}

theorem rejects_pure (a : α) : Rejects (C := C) (A := A) W (pure a) :=
  fun e (h : Except.ok a = Except.error e) => nomatch h

theorem rejects_throw {e : ε} (h : W e) : Rejects (C := C) (A := A) (α := α) W (throw e) := by
  rintro _ ⟨⟩
  exact h

theorem rejects_call (c : C) : Rejects (A := A) W (call c) := follows_call trivial fun _ hx => hx

theorem rejects_bind {p : Program C A ε α} {f : α → Program C A ε β} (hp : Rejects W p)
    (hf : ∀ a, Rejects W (f a)) : Rejects W (p >>= f) :=
  follows_bind hp (fun _ a _ => hf a) fun _ _ he d hd => he d (congrArg _ (Except.error.inj hd))

theorem rejects_resolves {p : Program C A ε α} (hp : Resolves p) : Rejects W p := by
  induction p with
  | done a => exact rejects_pure a
  | reject e => exact absurd hp (by simp [Resolves, Follows])
  | await c k ih => exact ⟨trivial, fun x _ => ih x (hp.2 x trivial)⟩

theorem rejects_executes {H : Answers C A ε σ} (hcalls : ∀ {c s e t}, H c s (.error e) t → W e)
    {p : Program C A ε α} (hp : Rejects W p) {s t : σ} {e : ε} (h : Executes H p s (.error e) t) :
    W e := by
  obtain ⟨tr, h⟩ := h
  generalize hx : Except.error e = x at h
  induction h with
  | done b s => cases hx
  | reject d s => exact hp e hx.symm
  | await hc hk ih => exact ih (hp.2 _ fun d hd => hcalls (hd ▸ hc)) hx

theorem follows_observe {K : M → Except ε α → Prop} {fin : M → Except ε β → Prop}
    {p : Program C A ε α} {f : Except ε α → Program C A ε β} (hp : Follows P K m p)
    (hf : ∀ m x, K m x → Follows P fin m (f x)) : Follows P fin m (observe p f) := by
  induction p generalizing m with
  | done a => exact hf m _ hp
  | reject e => exact hf m _ hp
  | await c k ih => exact ⟨hp.1, fun x hx => ih x (hp.2 x hx)⟩

/-- If the body in the place of every call leads from a mode back to it, so does
the whole. -/
theorem follows_expand {C' : Type} {A' : C' → Type} {P : Protocol C' A' ε M}
    {f : (c : C) → Program C' A' ε (A c)} {p : Program C A ε α} (hp : Issues Q p)
    (hf : ∀ c, Q c → Follows P (fun m' _ => m' = m) m (f c)) :
    Follows P (fun m' _ => m' = m) m (expand f p) := by
  induction p with
  | done a => rfl
  | reject e => rfl
  | await c k ih =>
    apply follows_observe (hf c hp.1)
    intro m' x hm
    rw [hm]
    exact ih x (hp.2 x trivial)

/-- What a body yields may be relied on in what it issues after that. -/
theorem issues_yielded {p : Program C A ε α} {f : α → Program C A ε β} (hp : Issues Q p)
    (hy : Yields R p) (hf : ∀ a, R a → Issues Q (f a)) : Issues Q (p >>= f) :=
  follows_bind (follows_yields hp hy) (fun _ a ha => hf a (ha.2 a rfl)) fun _ _ _ => trivial

/-- The body makes calls of one kind and catches nothing: it rejects as soon as
one of them is rejected, and may throw on its own account only if `T` holds. -/
def Straight (Q : C → Prop) (T : Prop) : Program C A ε α → Prop
  | .done _ => True
  | .reject _ => T
  | .await c k => Q c ∧ (∀ a, Straight Q T (k (.ok a))) ∧ ∀ e, k (.error e) = .reject e

variable {T : Prop}

theorem straight_pure (a : α) : Straight (A := A) (ε := ε) Q T (pure a) := trivial

theorem straight_throw (hT : T) (e : ε) : Straight (A := A) (α := α) Q T (throw e) := hT

theorem straight_call {c : C} (hc : Q c) : Straight (A := A) (ε := ε) Q T (call c) :=
  ⟨hc, fun _ => trivial, fun _ => rfl⟩

theorem straight_bind {p : Program C A ε α} {f : α → Program C A ε β} (hp : Straight Q T p)
    (hf : ∀ a, Straight Q T (f a)) : Straight Q T (p >>= f) := by
  induction p with
  | done a => exact hf a
  | reject e => exact hp
  | await c k ih =>
    exact ⟨hp.1, fun a => ih _ (hp.2.1 a), fun e => congrArg (AsyncProgram.bind · f) (hp.2.2 e)⟩

theorem straight_gather {f : β → Program C A ε γ} {bs : List β} (hf : ∀ b, Straight Q T (f b)) :
    Straight Q T (gather f bs) := by
  induction bs with
  | nil => exact straight_pure _
  | cons b bs ih => exact straight_bind (hf b) fun c => straight_bind ih fun cs => straight_pure _

theorem straight_mono {Q' : C → Prop} {T' : Prop} (hQ : ∀ c, Q c → Q' c) (hT : T → T')
    {p : Program C A ε α} (hp : Straight Q T p) : Straight Q' T' p := by
  induction p with
  | done a => trivial
  | reject e => exact hT hp
  | await c k ih => exact ⟨hQ c hp.1, fun a => ih _ (hp.2.1 a), hp.2.2⟩

theorem issues_straight {p : Program C A ε α} (hp : Straight Q T p) : Issues Q p := by
  induction p with
  | done a => trivial
  | reject e => trivial
  | await c k ih =>
    obtain ⟨hc, hok, herror⟩ := hp
    refine ⟨hc, fun x _ => ?_⟩
    cases x with
    | ok a => exact ih _ (hok a)
    | error e => exact (herror e).symm ▸ trivial

/-- A straight body whose calls leave the mode alone stays in it until one of
them is rejected. -/
theorem follows_straight {p : Program C A ε α} (hp : Straight Q T p)
    (hstay : ∀ c, Q c → P.allows m c ∧ ∀ a, P.expects m c (.ok a) → P.next m c (.ok a) = m) :
    Follows P (fun m' x => match x with
      | .ok _ => m' = m
      | .error _ => m' = m ∧ T ∨ ∃ c e, Q c ∧ P.expects m c (.error e) ∧ m' = P.next m c (.error e))
      m p := by
  induction p with
  | done a => rfl
  | reject e => exact .inl ⟨rfl, hp⟩
  | await c k ih =>
    obtain ⟨hc, hok, herror⟩ := hp
    refine ⟨(hstay c hc).1, fun x hx => ?_⟩
    cases x with
    | ok a =>
      rw [(hstay c hc).2 a hx]
      exact ih _ (hok a)
    | error e =>
      rw [herror e]
      exact .inr ⟨c, e, hc, hx, rfl⟩

end SpotQueue.Awaits.AsyncProtocol
