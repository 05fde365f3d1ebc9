import Mathlib.Algebra.Order.Round
import Mathlib.Data.Int.ConditionallyCompleteOrder
import Mathlib.Data.Int.Log
import Mathlib.Data.Rat.Floor
import Mathlib.Tactic.FieldSimp
import Mathlib.Tactic.GCongr
import Mathlib.Tactic.Linarith
import Mathlib.Tactic.Positivity

/-! # Decimal arithmetic of a fixed precision

A finite decimal is written as the rational it stands for. A product or a quotient is
rounded to the significant digits of the context, halves to even; `quantize` rounds to a
number of places and fails when the result has more digits than the context allows.
-/

namespace Decimal

section Nearest

/-- Round to the nearest integer, halves to even. -/
def roundHalfEven (q : ℚ) : ℤ :=
  if Int.fract q < 1 / 2 then ⌊q⌋
  else if 1 / 2 < Int.fract q then ⌊q⌋ + 1
  else if ⌊q⌋ % 2 = 0 then ⌊q⌋ else ⌊q⌋ + 1

variable {x y : ℚ} {n : ℤ}

theorem abs_roundHalfEven_sub_le (q : ℚ) : |(roundHalfEven q : ℚ) - q| ≤ 1 / 2 := by
  have hq := Int.floor_add_fract q
  have h0 := Int.fract_nonneg q
  have h1 := Int.fract_lt_one q
  rw [abs_le]
  unfold roundHalfEven
  split_ifs <;> push_cast <;> constructor <;> linarith

theorem roundHalfEven_eq_of_abs_lt (h : |x - n| < 1 / 2) : roundHalfEven x = n := by
  have hround := abs_le.mp (abs_roundHalfEven_sub_le x)
  obtain ⟨hlow, hhigh⟩ := abs_lt.mp h
  have hlt : ((roundHalfEven x : ℤ) : ℚ) < n + 1 := by linarith
  have hgt : (n : ℚ) - 1 < (roundHalfEven x : ℤ) := by linarith
  have hlt' : roundHalfEven x < n + 1 := by exact_mod_cast hlt
  have hgt' : n - 1 < roundHalfEven x := by exact_mod_cast hgt
  omega

@[simp] theorem roundHalfEven_intCast (n : ℤ) : roundHalfEven (n : ℚ) = n :=
  roundHalfEven_eq_of_abs_lt (by simp)

theorem floor_le_roundHalfEven (q : ℚ) : ⌊q⌋ ≤ roundHalfEven q := by
  unfold roundHalfEven
  split_ifs <;> omega

theorem roundHalfEven_le_floor_add_one (q : ℚ) : roundHalfEven q ≤ ⌊q⌋ + 1 := by
  unfold roundHalfEven
  split_ifs <;> omega

theorem roundHalfEven_mono : Monotone roundHalfEven := by
  intro x y hxy
  rcases (Int.floor_mono hxy).lt_or_eq with hlt | heq
  · calc roundHalfEven x ≤ ⌊x⌋ + 1 := roundHalfEven_le_floor_add_one x
      _ ≤ ⌊y⌋ := hlt
      _ ≤ roundHalfEven y := floor_le_roundHalfEven y
  · -- between two integers only the fraction grows
    have hfract : Int.fract x ≤ Int.fract y := by
      rw [Int.fract, Int.fract, heq]
      linarith
    unfold roundHalfEven
    rw [heq]
    split_ifs <;> first | omega | linarith

theorem exists_abs_lt_of_no_tie (h : ∀ n : ℤ, x ≠ n + 1 / 2) : ∃ n : ℤ, |x - n| < 1 / 2 := by
  refine ⟨roundHalfEven x, ?_⟩
  have hle := abs_roundHalfEven_sub_le x
  rw [abs_sub_comm] at hle
  refine lt_of_le_of_ne hle fun he => ?_
  rcases (abs_eq (by norm_num)).mp he with he | he
  · exact h (roundHalfEven x) (by linarith)
  · refine h (roundHalfEven x - 1) ?_
    push_cast
    linarith

/-- A number nearer than any tie rounds to the same integer. -/
theorem roundHalfEven_eq_of_near (htie : ∀ n : ℤ, x = n + 1 / 2 → y = x)
    (hnear : ∀ n : ℤ, x ≠ n + 1 / 2 → |y - x| < |x - (n + 1 / 2)|) :
    roundHalfEven y = roundHalfEven x := by
  by_cases h : ∃ n : ℤ, x = n + 1 / 2
  · obtain ⟨n, hn⟩ := h
    rw [htie n hn]
  · push Not at h
    obtain ⟨n, hn⟩ := exists_abs_lt_of_no_tie h
    rw [roundHalfEven_eq_of_abs_lt hn]
    refine roundHalfEven_eq_of_abs_lt ?_
    obtain ⟨hlow, hhigh⟩ := abs_lt.mp hn
    have habove : |y - x| < n + 1 / 2 - x := by
      have := hnear n (h n)
      rwa [abs_of_neg (by linarith : x - (n + 1 / 2) < 0), neg_sub] at this
    have hbelow : |y - x| < x - (n - 1 / 2) := by
      have := hnear (n - 1) (h (n - 1))
      push_cast at this
      rw [abs_of_pos (by linarith : (0 : ℚ) < x - (n - 1 + 1 / 2))] at this
      linarith
    obtain ⟨hy, hy'⟩ := abs_lt.mp habove
    obtain ⟨hz, hz'⟩ := abs_lt.mp hbelow
    exact abs_lt.mpr ⟨by linarith, by linarith⟩

end Nearest

section Precision

inductive Signal
  | divisionByZero | invalidOperation
  deriving DecidableEq, Repr

variable (prec : ℕ)

/-- The exponent of the last digit that a result of `prec` digits keeps. -/
def lastDigit (q : ℚ) : ℤ := Int.log 10 |q| + 1 - prec

/-- Round to `prec` significant digits. -/
def round (q : ℚ) : ℚ := roundHalfEven (q / 10 ^ lastDigit prec q) * 10 ^ lastDigit prec q

/-- The product of two decimals. -/
def mul (x y : ℚ) : ℚ := round prec (x * y)

/-- The quotient of two decimals. -/
def div (x y : ℚ) : Except Signal ℚ :=
  if y = 0 then .error (if x = 0 then .invalidOperation else .divisionByZero)
  else .ok (round prec (x / y))

/-- Round to a number of places after the point. -/
def quantize (x : ℚ) (places : ℕ) : Except Signal ℚ :=
  let coefficient := roundHalfEven (x * 10 ^ places)
  if 10 ^ prec ≤ |coefficient| then .error .invalidOperation
  else .ok (coefficient / 10 ^ places)

variable {prec} {q : ℚ}

theorem abs_round_sub_le (prec : ℕ) (hq : q ≠ 0) :
    |round prec q - q| ≤ |q| * 10 ^ (1 - (prec : ℤ)) / 2 := by
  have hpos : (0 : ℚ) < 10 ^ lastDigit prec q := zpow_pos (by norm_num) _
  have hscale : round prec q - q =
      (roundHalfEven (q / 10 ^ lastDigit prec q) - q / 10 ^ lastDigit prec q) *
        10 ^ lastDigit prec q := by
    rw [sub_mul, div_mul_cancel₀ _ hpos.ne', round]
  have hlog : (10 : ℚ) ^ Int.log 10 |q| ≤ |q| := by
    exact_mod_cast Int.zpow_log_le_self (b := 10) (by norm_num) (abs_pos.mpr hq)
  have hdigit : (10 : ℚ) ^ lastDigit prec q = 10 ^ Int.log 10 |q| * 10 ^ (1 - (prec : ℤ)) := by
    rw [lastDigit, ← zpow_add₀ (by norm_num)]
    congr 1
    ring
  rw [hscale, abs_mul, abs_of_pos hpos]
  calc |(roundHalfEven (q / 10 ^ lastDigit prec q) : ℚ) - q / 10 ^ lastDigit prec q| *
        10 ^ lastDigit prec q
      ≤ 1 / 2 * 10 ^ lastDigit prec q :=
        mul_le_mul_of_nonneg_right (abs_roundHalfEven_sub_le _) hpos.le
    _ = 10 ^ Int.log 10 |q| * 10 ^ (1 - (prec : ℤ)) / 2 := by rw [hdigit]; ring
    _ ≤ |q| * 10 ^ (1 - (prec : ℤ)) / 2 := by
        have : (0 : ℚ) < 10 ^ (1 - (prec : ℤ)) := zpow_pos (by norm_num) _
        have := mul_le_mul_of_nonneg_right hlog this.le
        linarith

/-- A number of at most `prec` digits is kept as it is. -/
theorem round_eq_self {k : ℤ} {places : ℕ} (hq : q = k / 10 ^ places) (hk : |k| < 10 ^ prec) :
    round prec q = q := by
  by_cases h0 : q = 0
  · simp [round, h0, roundHalfEven]
  have hlast : lastDigit prec q ≤ -(places : ℤ) := by
    have hlog : (10 : ℚ) ^ Int.log 10 |q| ≤ |q| := by
      exact_mod_cast Int.zpow_log_le_self (b := 10) (by norm_num) (abs_pos.mpr h0)
    have habs : |q| < 10 ^ ((prec : ℤ) - places) := by
      have hk' : |(k : ℚ)| < 10 ^ prec := by exact_mod_cast hk
      rw [hq, abs_div, abs_of_pos (by positivity : (0 : ℚ) < 10 ^ places), zpow_sub₀ (by norm_num),
        zpow_natCast, zpow_natCast]
      gcongr
    have := (zpow_lt_zpow_iff_right₀ (by norm_num : (1 : ℚ) < 10)).mp (hlog.trans_lt habs)
    rw [lastDigit]
    omega
  obtain ⟨m, hm⟩ := Int.eq_ofNat_of_zero_le (by omega : 0 ≤ -(places : ℤ) - lastDigit prec q)
  have hint : q / 10 ^ lastDigit prec q = ((k * 10 ^ m : ℤ) : ℚ) := by
    have hdigit : lastDigit prec q = -(places : ℤ) - m := by omega
    rw [hdigit, hq, zpow_sub₀ (by norm_num), zpow_neg, zpow_natCast, zpow_natCast]
    push_cast
    field_simp
  have hpos : (10 : ℚ) ^ lastDigit prec q ≠ 0 := zpow_ne_zero _ (by norm_num)
  rw [round, hint, roundHalfEven_intCast, ← hint, div_mul_cancel₀ _ hpos]

/-- Rounding a fraction to the digits of the context first does not change the integer that
it rounds to, when its numerator has fewer digits. -/
theorem roundHalfEven_round {a b : ℤ} (hb : 0 < b) {places : ℕ} (ha : 10 * |a| < 10 ^ prec) :
    roundHalfEven (round prec (a / b / 10 ^ places) * 10 ^ places) = roundHalfEven (a / b) := by
  have hp : (0 : ℚ) < 10 ^ places := by positivity
  have hbq : (0 : ℚ) < b := by exact_mod_cast hb
  have hb1 : (1 : ℚ) ≤ b := by exact_mod_cast hb
  have haq : 10 * |(a : ℚ)| < 10 ^ prec := by exact_mod_cast ha
  refine roundHalfEven_eq_of_near (fun n hn => ?_) fun n hn => ?_
  · -- a tie has one digit after the point
    have hdigits : (a : ℚ) / b / 10 ^ places =
        ((10 * n + 5 : ℤ) : ℚ) / 10 ^ (places + 1) := by
      rw [hn, pow_succ]
      push_cast
      field_simp
      ring
    rw [round_eq_self hdigits, div_mul_cancel₀ _ hp.ne']
    have habs : |(a : ℚ) / b| ≤ |(a : ℚ)| := by
      rw [abs_div, abs_of_pos hbq]
      exact div_le_self (abs_nonneg _) hb1
    have : |((10 * n + 5 : ℤ) : ℚ)| < 10 ^ prec := by
      have h10 : ((10 * n + 5 : ℤ) : ℚ) = 10 * (a / b) := by
        rw [hn]
        push_cast
        ring
      rw [h10, abs_mul, abs_of_pos (by norm_num : (0 : ℚ) < 10)]
      linarith
    exact_mod_cast this
  · by_cases h0 : a = 0
    · subst h0
      have hzero : round prec ((0 : ℤ) / b / 10 ^ places) = 0 := by
        simp [round, roundHalfEven]
      rw [hzero]
      simp only [Int.cast_zero, zero_div, zero_mul, sub_self, abs_zero]
      exact abs_pos.mpr (sub_ne_zero.mpr (by simpa using hn))
    -- the nearest tie is at least half a unit of the denominator away
    have hfar : 1 / (2 * (b : ℚ)) ≤ |(a : ℚ) / b - (n + 1 / 2)| := by
      have hform : (a : ℚ) / b - (n + 1 / 2) = ((2 * a - (2 * n + 1) * b : ℤ) : ℚ) / (2 * b) := by
        push_cast
        field_simp
      have hne : 2 * a - (2 * n + 1) * b ≠ 0 := fun h => hn (by
        rw [← sub_eq_zero, hform, h]
        simp)
      rw [hform, abs_div, abs_of_pos (by positivity : (0 : ℚ) < 2 * b)]
      gcongr
      exact_mod_cast Int.one_le_abs hne
    have hq : (a : ℚ) / b / 10 ^ places ≠ 0 := by
      have : (a : ℚ) ≠ 0 := by exact_mod_cast h0
      positivity
    have herr := abs_round_sub_le prec hq
    refine lt_of_lt_of_le ?_ hfar
    have hsplit : round prec (a / b / 10 ^ places) * 10 ^ places - a / b =
        (round prec (a / b / 10 ^ places) - a / b / 10 ^ places) * 10 ^ places := by
      rw [sub_mul, div_mul_cancel₀ _ hp.ne']
    rw [hsplit, abs_mul, abs_of_pos hp]
    calc |round prec ((a : ℚ) / b / 10 ^ places) - a / b / 10 ^ places| * 10 ^ places
        ≤ |(a : ℚ) / b / 10 ^ places| * 10 ^ (1 - (prec : ℤ)) / 2 * 10 ^ places :=
          mul_le_mul_of_nonneg_right herr hp.le
      _ = 10 * |(a : ℚ)| / 10 ^ prec / (2 * b) := by
          rw [abs_div, abs_div, abs_of_pos hbq, abs_of_pos hp, zpow_sub₀ (by norm_num), zpow_one,
            zpow_natCast]
          field_simp
      _ < 1 / (2 * b) := by
          gcongr
          exact (div_lt_one (by positivity)).mpr haq

/-- A coefficient of at most `prec` digits is a result. -/
theorem quantize_eq_ok {x : ℚ} {places : ℕ} (h : |roundHalfEven (x * 10 ^ places)| < 10 ^ prec) :
    quantize prec x places = .ok (roundHalfEven (x * 10 ^ places) / 10 ^ places) :=
  if_neg (not_le.mpr h)

end Precision

end Decimal
