import Mathlib.Algebra.Order.Round
import Mathlib.Data.Rat.Floor
import Mathlib.Tactic.Linarith
import Mathlib.Tactic.NormNum
import Mathlib.Tactic.FieldSimp

/-! # Columns of a fixed scale

A column keeps a number of units of one size. A number that is written to it is rounded to
the nearest unit, halves away from zero. Rounding commutes with adding whole units to an
amount that is not negative; splitting a whole number of units loses nothing but at a tie.
-/

namespace FixedScale

/-- Round to the nearest integer, halves away from zero. -/
def roundHalfAway (q : ℚ) : ℤ := if 0 ≤ q then ⌊q + 1 / 2⌋ else -⌊-q + 1 / 2⌋

section Round

variable {q : ℚ} {n : ℤ}

theorem roundHalfAway_of_nonneg (hq : 0 ≤ q) : roundHalfAway q = ⌊q + 1 / 2⌋ := if_pos hq

@[simp] theorem roundHalfAway_intCast (n : ℤ) : roundHalfAway (n : ℚ) = n := by
  have hhalf : ∀ m : ℤ, ⌊(m : ℚ) + 1 / 2⌋ = m := by
    intro m
    rw [Int.floor_eq_iff]
    constructor <;> linarith
  unfold roundHalfAway
  split
  · exact hhalf n
  · rw [← Int.cast_neg, hhalf, neg_neg]

theorem roundHalfAway_intCast_add (hn : 0 ≤ n) (hq : 0 ≤ q) :
    roundHalfAway (n + q) = n + roundHalfAway q := by
  have hsum : (0 : ℚ) ≤ n + q := add_nonneg (by exact_mod_cast hn) hq
  rw [roundHalfAway_of_nonneg hsum, roundHalfAway_of_nonneg hq, add_assoc, Int.floor_intCast_add]

theorem roundHalfAway_nonneg (hq : 0 ≤ q) : 0 ≤ roundHalfAway q := by
  rw [roundHalfAway_of_nonneg hq]
  exact Int.floor_nonneg.mpr (by linarith)

theorem roundHalfAway_le (hq : 0 ≤ q) (h : q ≤ n) : roundHalfAway q ≤ n := by
  rw [roundHalfAway_of_nonneg hq, ← Int.lt_add_one_iff, Int.floor_lt]
  push_cast
  linarith

/-- The two parts of a whole number of units make it up again, when neither is a tie. -/
theorem roundHalfAway_split (hq : 0 ≤ q) (h : q ≤ n) (htie : Int.fract q ≠ 1 / 2) :
    roundHalfAway q + roundHalfAway (n - q) = n := by
  rw [roundHalfAway_of_nonneg hq, roundHalfAway_of_nonneg (by linarith)]
  have hfloor := Int.floor_add_fract q
  have hnonneg := Int.fract_nonneg q
  have hlt := Int.fract_lt_one q
  rcases lt_or_gt_of_ne htie with hlow | hhigh
  · have hl : ⌊q + 1 / 2⌋ = ⌊q⌋ := by
      rw [Int.floor_eq_iff]
      constructor <;> linarith
    have hr : ⌊(n : ℚ) - q + 1 / 2⌋ = n - ⌊q⌋ := by
      rw [Int.floor_eq_iff]
      push_cast
      constructor <;> linarith
    rw [hl, hr]
    ring
  · have hl : ⌊q + 1 / 2⌋ = ⌊q⌋ + 1 := by
      rw [Int.floor_eq_iff]
      push_cast
      constructor <;> linarith
    have hr : ⌊(n : ℚ) - q + 1 / 2⌋ = n - ⌊q⌋ - 1 := by
      rw [Int.floor_eq_iff]
      push_cast
      constructor <;> linarith
    rw [hl, hr]
    ring

end Round

variable (scale : ℕ)

/-- The number that a column of this scale holds. -/
def value (n : ℤ) : ℚ := n / scale

/-- Write a number to a column of this scale. -/
def store (x : ℚ) : ℤ := roundHalfAway (x * scale)

variable {scale} {x : ℚ} {n m : ℤ}

theorem value_add : value scale (n + m) = value scale n + value scale m := by
  simp [value, add_div]

theorem value_sub : value scale (n - m) = value scale n - value scale m := by
  simp [value, sub_div]

theorem value_neg : value scale (-n) = -value scale n := by
  simp [value, neg_div]

@[simp] theorem value_zero : value scale 0 = 0 := by simp [value]

variable [NeZero scale]

theorem value_mul_scale : value scale n * scale = n := by
  have : (scale : ℚ) ≠ 0 := by exact_mod_cast NeZero.ne scale
  rw [value]
  field_simp

@[simp] theorem store_value : store scale (value scale n) = n := by
  rw [store, value_mul_scale, roundHalfAway_intCast]

theorem scale_pos : (0 : ℚ) < scale := by exact_mod_cast Nat.pos_of_ne_zero (NeZero.ne scale)

@[simp] theorem value_le_value : value scale n ≤ value scale m ↔ n ≤ m := by
  rw [value, value, div_le_div_iff_of_pos_right scale_pos]
  exact_mod_cast Iff.rfl

@[simp] theorem value_lt_value : value scale n < value scale m ↔ n < m := by
  rw [value, value, div_lt_div_iff_of_pos_right scale_pos]
  exact_mod_cast Iff.rfl

@[simp] theorem value_inj : value scale n = value scale m ↔ n = m := by
  rw [le_antisymm_iff, value_le_value, value_le_value, ← le_antisymm_iff]

theorem value_nonneg : 0 ≤ value scale n ↔ 0 ≤ n := by
  rw [← @value_le_value scale 0 n, value_zero]

theorem store_nonneg (hx : 0 ≤ x) : 0 ≤ store scale x :=
  roundHalfAway_nonneg (mul_nonneg hx scale_pos.le)

section Columns

@[simp] theorem store_value_add_value : store scale (value scale n + value scale m) = n + m := by
  rw [← value_add, store_value]

@[simp] theorem store_value_sub_value : store scale (value scale n - value scale m) = n - m := by
  rw [← value_sub, store_value]

theorem value_sub_nonneg : 0 ≤ value scale n - value scale m ↔ m ≤ n := by
  rw [sub_nonneg, value_le_value]

theorem max_zero_value_sub (h : m ≤ n) :
    max 0 (value scale n - value scale m) = value scale (n - m) := by
  rw [value_sub, max_eq_right (value_sub_nonneg.mpr h)]

end Columns

theorem store_value_add (hn : 0 ≤ n) (hx : 0 ≤ x) :
    store scale (value scale n + x) = n + store scale x := by
  rw [store, add_mul, value_mul_scale, roundHalfAway_intCast_add hn (mul_nonneg hx scale_pos.le),
    store]

theorem store_le (hx : 0 ≤ x) (h : x ≤ value scale n) : store scale x ≤ n := by
  refine roundHalfAway_le (mul_nonneg hx scale_pos.le) ?_
  rw [← @value_mul_scale scale n]
  exact mul_le_mul_of_nonneg_right h scale_pos.le

theorem store_split (hx : 0 ≤ x) (h : x ≤ value scale n) (htie : Int.fract (x * scale) ≠ 1 / 2) :
    store scale x + store scale (value scale n - x) = n := by
  have hle : x * scale ≤ n := by
    rw [← @value_mul_scale scale n]
    exact mul_le_mul_of_nonneg_right h scale_pos.le
  rw [store, store, sub_mul, value_mul_scale]
  exact roundHalfAway_split (mul_nonneg hx scale_pos.le) hle htie

section Exact

/-- A column of this scale holds the number exactly. -/
def Exact (scale : ℕ) (x : ℚ) : Prop := ∃ n, value scale n = x

variable {y : ℚ}

omit [NeZero scale] in
theorem exact_value (n : ℤ) : Exact scale (value scale n) := ⟨n, rfl⟩

theorem Exact.value_store (hx : Exact scale x) : value scale (store scale x) = x := by
  obtain ⟨n, rfl⟩ := hx
  rw [store_value]

omit [NeZero scale] in
theorem Exact.add (hx : Exact scale x) (hy : Exact scale y) : Exact scale (x + y) := by
  obtain ⟨n, rfl⟩ := hx
  obtain ⟨m, rfl⟩ := hy
  exact ⟨n + m, value_add⟩

omit [NeZero scale] in
theorem Exact.sub (hx : Exact scale x) (hy : Exact scale y) : Exact scale (x - y) := by
  obtain ⟨n, rfl⟩ := hx
  obtain ⟨m, rfl⟩ := hy
  exact ⟨n - m, value_sub⟩

omit [NeZero scale] in
theorem Exact.neg (hx : Exact scale x) : Exact scale (-x) := by
  obtain ⟨n, rfl⟩ := hx
  exact ⟨-n, value_neg⟩

omit [NeZero scale] in
theorem Exact.max_zero (hx : Exact scale x) : Exact scale (max 0 x) := by
  rcases max_choice 0 x with h | h
  · rw [h]
    exact ⟨0, value_zero⟩
  · rwa [h]

theorem Exact.fract_ne (hx : Exact scale x) : Int.fract (x * scale) ≠ 1 / 2 := by
  obtain ⟨n, rfl⟩ := hx
  rw [value_mul_scale, Int.fract_intCast]
  norm_num

end Exact

end FixedScale
