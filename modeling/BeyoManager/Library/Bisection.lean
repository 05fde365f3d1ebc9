import Mathlib.Order.Bounds.Basic
import Mathlib.Tactic.Linarith
import Mathlib.Tactic.Ring

/-! # Search for the least integer with a monotone property

An upper bound is found by doubling up to a cap, and the least integer below it by halving
an interval. The test may fail with an error; when it never does and the property is
monotone, the search finds the least integer up to the cap, if there is one.
-/

namespace Bisection

variable {ε : Type} (reached : ℤ → Except ε Bool)

/-- Double a positive bound until it is reached or passes the cap. -/
def double (cap high : ℤ) (hpos : 0 < high) : Except ε ℤ :=
  if high ≤ cap then do
    if ← reached high then pure high
    else double cap (high * 2) (by omega)
  else pure high
termination_by (cap + 1 - high).toNat

/-- Halve the interval between a bound that is not reached and one that is. -/
def bisect (low high : ℤ) : Except ε ℤ :=
  if low + 1 < high then do
    let middle := (low + high) / 2
    if ← reached middle then bisect low middle
    else bisect middle high
  else pure high
termination_by (high - low).toNat

variable {reached} {P : ℤ → Prop} [DecidablePred P] {cap high low : ℤ}

section Rules

variable (htest : ∀ n, reached n = .ok (decide (P n)))

include htest

theorem double_of_reached {hpos : 0 < high} (hle : high ≤ cap) (hP : P high) :
    double reached cap high hpos = .ok high := by
  rw [double, if_pos hle, htest]
  simp [hP, bind, Except.bind, pure, Except.pure]

theorem double_of_not_reached {hpos : 0 < high} (hle : high ≤ cap) (hP : ¬ P high) :
    double reached cap high hpos = double reached cap (high * 2) (by omega) := by
  rw [double, if_pos hle, htest]
  simp [hP, bind, Except.bind]

omit htest in
theorem double_of_cap_lt {hpos : 0 < high} (hlt : cap < high) :
    double reached cap high hpos = .ok high := by
  rw [double, if_neg (not_le.mpr hlt)]
  rfl

/-- Doubling ends at a bound that is reached, or has seen that the cap is not. -/
theorem double_spec (k : ℕ) {high : ℤ} (hpos : 0 < high) (hcap : cap = high * 2 ^ k) :
    (∃ bound, double reached cap high hpos = .ok bound ∧ 0 < bound ∧ bound ≤ cap ∧ P bound) ∨
      (∃ bound, double reached cap high hpos = .ok bound ∧ cap < bound ∧ ¬ P cap) := by
  induction k generalizing high with
  | zero =>
    have hle : high ≤ cap := by omega
    by_cases hP : P high
    · exact Or.inl ⟨high, double_of_reached htest hle hP, hpos, hle, hP⟩
    · right
      refine ⟨high * 2, ?_, by omega, by simpa [hcap] using hP⟩
      rw [double_of_not_reached htest hle hP, double_of_cap_lt (by omega)]
  | succ k ih =>
    have hstep : cap = high * 2 * 2 ^ k := by
      rw [hcap]
      ring
    have hle : high ≤ cap := by
      rw [hcap]
      exact le_mul_of_one_le_right hpos.le (one_le_pow₀ (by decide))
    by_cases hP : P high
    · exact Or.inl ⟨high, double_of_reached htest hle hP, hpos, hle, hP⟩
    · rw [double_of_not_reached htest hle hP]
      exact ih (by omega) hstep

theorem bisect_step (hwide : low + 1 < high) :
    bisect reached low high = if P ((low + high) / 2) then bisect reached low ((low + high) / 2)
      else bisect reached ((low + high) / 2) high := by
  rw [bisect, if_pos hwide]
  simp [htest, bind, Except.bind]

theorem bisect_spec (hlow : ¬ P low) (hhigh : P high) (hlt : low < high) :
    ∃ bound, bisect reached low high = .ok bound ∧ low < bound ∧ bound ≤ high ∧
      P bound ∧ ¬ P (bound - 1) := by
  obtain ⟨n, hn⟩ : ∃ n : ℕ, high - low ≤ n := ⟨(high - low).toNat, by omega⟩
  induction n generalizing low high with
  | zero => omega
  | succ n ih =>
    by_cases hwide : low + 1 < high
    · have hmiddle : low < (low + high) / 2 ∧ (low + high) / 2 < high := by omega
      rw [bisect_step htest hwide]
      split
      · obtain ⟨bound, hrun, hl, hh, hb⟩ := ih hlow ‹_› hmiddle.1 (by omega)
        exact ⟨bound, hrun, hl, by omega, hb⟩
      · obtain ⟨bound, hrun, hl, hh, hb⟩ := ih ‹_› hhigh hmiddle.2 (by omega)
        exact ⟨bound, hrun, by omega, hh, hb⟩
    · obtain rfl : high = low + 1 := by omega
      rw [bisect, if_neg hwide]
      exact ⟨low + 1, rfl, hlt, le_rfl, hhigh, by simpa using hlow⟩

end Rules

omit [DecidablePred P] in
theorem isLeast_of_step {bound : ℤ} (hmono : ∀ m n, m ≤ n → P m → P n) (hP : P bound)
    (hbefore : ¬ P (bound - 1)) : IsLeast {n | P n} bound := by
  constructor
  · exact hP
  · intro n hn
    by_contra hlt
    exact hbefore (hmono n _ (by omega) hn)

end Bisection
