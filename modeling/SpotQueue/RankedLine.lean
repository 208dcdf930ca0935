import Mathlib.Data.List.InsertIdx
import Mathlib.Data.List.TakeWhile

namespace SpotQueue.RankedLine

variable {τ : Type}

/-- A line whose members carry the number they were last given. -/
abbrev Ranked (τ : Type) := List (τ × Nat)

def tickets (l : Ranked τ) : List τ := l.map (·.1)

def renumber (l : List τ) : Ranked τ := l.mapIdx fun i t => (t, i + 1)

/-- A new member is given the number after the last of so many, and stands
behind whoever holds that number or a smaller one. -/
def enter (l : Ranked τ) (t : τ) : Ranked τ :=
  l.takeWhile (·.2 ≤ l.length + 1) ++ (t, l.length + 1) :: l.dropWhile (·.2 ≤ l.length + 1)

@[simp] theorem tickets_renumber (l : List τ) : tickets (renumber l) = l := by
  apply List.ext_getElem?
  intro i
  simp [tickets, renumber, Function.comp_def]

@[simp] theorem renumber_length (l : List τ) : (renumber l).length = l.length := by
  simp [renumber]

theorem renumber_mem {l : List τ} {p : τ × Nat} (hp : p ∈ renumber l) : p.2 ≤ l.length := by
  obtain ⟨i, hi, rfl⟩ := List.mem_mapIdx.mp hp
  exact hi

/-- Nobody in a numbered line is overtaken by whoever enters it. -/
theorem enter_renumber (l : List τ) (t : τ) : enter (renumber l) t = renumber (l ++ [t]) := by
  have hall : ∀ p ∈ renumber l, decide (p.2 ≤ (renumber l).length + 1) = true := by
    intro p hp
    have := renumber_mem hp
    rw [renumber_length]
    exact decide_eq_true (by omega)
  rw [enter, List.takeWhile_eq_self_iff.mpr hall, List.dropWhile_eq_nil_iff.mpr hall,
    renumber_length, renumber, renumber, List.mapIdx_concat]

/-- Where a list is sorted and a test holds below everything it holds at, the rest fails it. -/
theorem dropWhile_fails {α : Type} {R : α → α → Prop} {p : α → Bool} {l : List α} {x : α}
    (hl : l.Pairwise R) (hp : ∀ a ∈ l, ∀ b ∈ l, R a b → p b → p a) (hx : x ∈ l.dropWhile p) :
    p x = false := by
  induction l with
  | nil => cases hx
  | cons a l ih =>
    obtain ⟨ha, hl⟩ := List.pairwise_cons.mp hl
    rw [List.dropWhile_cons] at hx
    split at hx
    · exact ih hl (fun b hb c hc => hp b (.tail _ hb) c (.tail _ hc)) hx
    · rename_i hfirst
      obtain rfl | hx := List.mem_cons.mp hx
      · simpa using hfirst
      · have hback := hp a (.head _) x (.tail _ hx) (ha x hx)
        simpa using mt hback hfirst

variable [DecidableEq τ]

/-- A member goes `k` places down, or to the end. -/
def moveDown (l : List τ) (t : τ) (k : Nat) : List τ :=
  (l.eraseIdx (l.idxOf t)).insertIdx (min (l.idxOf t + k) (l.length - 1)) t

/-- Leaving closes the gap, vacating leaves it open. -/
inductive Action (τ : Type)
  | join (t : τ)
  | leave (t : τ)
  | vacate (t : τ)
  | shift (t : τ) (k : Nat)

def act (l : Ranked τ) : Action τ → Ranked τ
  | .join t => enter l t
  | .leave t => renumber ((tickets l).filter (· ≠ t))
  | .vacate t => l.filter (·.1 ≠ t)
  | .shift t k => renumber (moveDown (tickets l) t k)

/-- The same on a line without numbers: the newest stands last. -/
def step (l : List τ) : Action τ → List τ
  | .join t => l ++ [t]
  | .leave t | .vacate t => l.filter (· ≠ t)
  | .shift t k => moveDown l t k

/-- As long as every gap is closed, a numbered line is a plain list. -/
theorem act_renumber {a : Action τ} (ha : ∀ t, a ≠ .vacate t) (l : List τ) :
    act (renumber l) a = renumber (step l a) := by
  cases a with
  | join t => exact enter_renumber l t
  | leave t => rw [act, tickets_renumber, step]
  | vacate t => exact (ha t rfl).elim
  | shift t k => rw [act, tickets_renumber, step]

theorem foldl_act_renumber {as : List (Action τ)} (has : ∀ a ∈ as, ∀ t, a ≠ .vacate t) (l : List τ) :
    as.foldl act (renumber l) = renumber (as.foldl step l) := by
  induction as generalizing l with
  | nil => rfl
  | cons a as ih =>
    rw [List.forall_mem_cons] at has
    rw [List.foldl_cons, List.foldl_cons, act_renumber has.1, ih has.2]

end SpotQueue.RankedLine
