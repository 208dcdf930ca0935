import Mathlib.Algebra.Group.Nat.Defs
import Mathlib.Data.List.Basic

namespace SpotQueue.NumberText

/-- Up to here a double tells every natural number from the next. -/
def MAX_SAFE_INTEGER : Nat := 9007199254740991

/-- The double nearest to a natural number; of two at one distance the one with an even
significand. -/
def toDouble (n : Nat) : Nat :=
  let unit := 2 ^ (n.log2 - 52)
  let significand := n / unit
  let rest := n % unit
  (if unit < 2 * rest ∨ unit = 2 * rest ∧ significand % 2 = 1 then significand + 1
    else significand) * unit

/-- The significand in front of `j` zeros that is read as the double `x`. Where there are
two it is the nearer, and the even one of two at one distance. -/
def significand (x j : Nat) : Option Nat :=
  let low := x / 10 ^ j
  let isLow := toDouble (low * 10 ^ j) = x
  let isHigh := toDouble ((low + 1) * 10 ^ j) = x
  let below := x - low * 10 ^ j
  let above := (low + 1) * 10 ^ j - x
  if isLow ∧ ¬ (isHigh ∧ (above < below ∨ above = below ∧ low % 2 = 1)) then some low
  else if isHigh then some (low + 1)
  else none

/-- The fewest digits that are read as the double `x`, with the zeros after them. -/
def shortest (x : Nat) : Nat → Nat × Nat
  | 0 => (x, 0)
  | j + 1 => ((significand x (j + 1)).map (·, j + 1)).getD (shortest x j)

/-- Plain decimal up to 21 digits, and an exponent from there on. -/
def printed (digits : List Char) (zeros : Nat) : String :=
  if digits.length + zeros ≤ 21 then String.ofList (digits ++ List.replicate zeros '0')
  else
    let fraction := if digits.length = 1 then [] else '.' :: digits.drop 1
    String.ofList (digits.take 1 ++ fraction ++ ['e', '+'] ++
      Nat.toDigits 10 (digits.length + zeros - 1))

def doubleText (x : Nat) : String :=
  if 1024 ≤ x.log2 then "Infinity"
  else if x = 0 then "0"
  else
    let (s, zeros) := shortest x (Nat.toDigits 10 x).length
    printed (Nat.toDigits 10 s) zeros

/-- `String(n)` of a natural number, which the language takes as a double. -/
def numberText (n : Nat) : String := doubleText (toDouble n)

def decimal (n : Nat) : String := String.ofList (Nat.toDigits 10 n)

example : numberText 1000 = "1000" := by decide +kernel

example : numberText (2 ^ 60) = "1152921504606847000" := by decide +kernel

example : numberText (12 * 10 ^ 21) = "1.2e+22" := by decide +kernel

variable {n m x s j k : Nat}

theorem log2_safe (h : n ≤ MAX_SAFE_INTEGER) : n.log2 - 52 = 0 := by
  obtain rfl | hn := Nat.eq_zero_or_pos n
  · rfl
  · have hlt : n.log2 < 53 := (Nat.log2_lt (Nat.ne_of_gt hn)).mpr (Nat.lt_of_le_of_lt h (by decide))
    omega

theorem toDouble_safe (h : n ≤ MAX_SAFE_INTEGER) : toDouble n = n := by
  simp [toDouble, log2_safe h, Nat.mod_one]

theorem toDouble_unsafe (h : MAX_SAFE_INTEGER < n) : MAX_SAFE_INTEGER < toDouble n := by
  have hn : n ≠ 0 := by omega
  have hlog : 53 ≤ n.log2 := (Nat.le_log2 hn).mpr h
  have hsplit : 2 ^ 52 * 2 ^ (n.log2 - 52) = 2 ^ n.log2 := by
    rw [← Nat.pow_add]
    congr 1
    omega
  have hquotient : 2 ^ 52 ≤ n / 2 ^ (n.log2 - 52) := by
    rw [Nat.le_div_iff_mul_le (Nat.two_pow_pos _), hsplit]
    exact Nat.log2_self_le hn
  have hle : 2 ^ 52 * 2 ^ (n.log2 - 52) ≤ toDouble n := by
    refine Nat.mul_le_mul_right _ (Nat.le_trans hquotient ?_)
    split
    · exact Nat.le_succ _
    · exact Nat.le_refl _
  calc MAX_SAFE_INTEGER < 2 ^ 53 := by decide
    _ ≤ 2 ^ n.log2 := Nat.pow_le_pow_right (by decide) hlog
    _ = 2 ^ 52 * 2 ^ (n.log2 - 52) := hsplit.symm
    _ ≤ toDouble n := hle

theorem toDouble_eq_safe (hx : x ≤ MAX_SAFE_INTEGER) (h : toDouble m = x) : m = x := by
  by_cases hm : m ≤ MAX_SAFE_INTEGER
  · rw [← h, toDouble_safe hm]
  · have hlt := toDouble_unsafe (Nat.lt_of_not_le hm)
    omega

theorem significand_safe (hx : x ≤ MAX_SAFE_INTEGER) (h : significand x j = some s) :
    s * 10 ^ j = x := by
  simp only [significand] at h
  split at h
  case isTrue hlow =>
    cases h
    exact toDouble_eq_safe hx hlow.1
  case isFalse =>
    split at h
    case isTrue hhigh =>
      cases h
      exact toDouble_eq_safe hx hhigh
    case isFalse => cases h

theorem shortest_safe (hx : x ≤ MAX_SAFE_INTEGER) (k : Nat) :
    (shortest x k).1 * 10 ^ (shortest x k).2 = x := by
  induction k with
  | zero => simp [shortest]
  | succ k ih =>
    cases hs : significand x (k + 1) with
    | some s =>
      simp only [shortest, hs]
      exact significand_safe hx hs
    | none =>
      simp only [shortest, hs]
      exact ih

theorem toDigits_mul_pow (hs : 0 < s) (j : Nat) :
    Nat.toDigits 10 (s * 10 ^ j) = Nat.toDigits 10 s ++ List.replicate j '0' := by
  induction j with
  | zero => simp
  | succ j ih =>
    have hpos : 0 < s * 10 ^ j := Nat.mul_pos hs (Nat.pow_pos (by decide))
    have happend := Nat.toDigits_append_toDigits (b := 10) (by decide) hpos (by decide : 0 < 10)
    rw [Nat.toDigits_zero, ih, List.append_assoc, ← List.replicate_succ', Nat.add_zero] at happend
    rw [happend, Nat.pow_succ, ← Nat.mul_assoc, Nat.mul_comm 10, Nat.add_zero]

theorem numberText_safe (h : n ≤ MAX_SAFE_INTEGER) : numberText n = decimal n := by
  obtain rfl | hn := Nat.eq_zero_or_pos n
  · rfl
  have hfinite : ¬ 1024 ≤ n.log2 := by
    have hzero := log2_safe h
    omega
  have hshortest := shortest_safe h (Nat.toDigits 10 n).length
  have hpos : 0 < (shortest n (Nat.toDigits 10 n).length).1 := by
    refine Nat.pos_of_ne_zero fun hzero => ?_
    rw [hzero, Nat.zero_mul] at hshortest
    omega
  have hdigits := toDigits_mul_pow hpos (shortest n (Nat.toDigits 10 n).length).2
  have hlength : (Nat.toDigits 10 n).length ≤ 16 :=
    (Nat.length_toDigits_le_iff (by decide) (by decide)).mpr (Nat.lt_of_le_of_lt h (by decide))
  rw [hshortest] at hdigits
  have hplain : (Nat.toDigits 10 (shortest n (Nat.toDigits 10 n).length).1).length +
      (shortest n (Nat.toDigits 10 n).length).2 ≤ 21 := by
    have hlen := congrArg List.length hdigits
    rw [List.length_append, List.length_replicate] at hlen
    omega
  rw [numberText, toDouble_safe h, doubleText, if_neg hfinite, if_neg (Nat.ne_of_gt hn)]
  change printed _ _ = _
  rw [printed, if_pos hplain, ← hdigits, decimal]

end SpotQueue.NumberText
