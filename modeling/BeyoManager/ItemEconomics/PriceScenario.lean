import BeyoManager.ItemEconomics.BudgetDivision
import BeyoManager.ItemEconomics.Calculator

/-! # The price scenario

The slider rounds integers by hand where the committed evaluation quantizes decimals. For a
budget that a column can hold, the decimal contexts have digits enough for the two to agree.
-/

namespace BeyoManager.ItemEconomics

open Transition

/-- `ValueError`. -/
structure ValueError where
  message : String
  deriving DecidableEq, Repr

/-- `PriceModel`. -/
structure PriceModel where
  residualPercentMilli : ℤ
  constantDeductionMinor : ℤ
  costPerWorkerMinuteTenThousandths : ℤ
  budgetCapPercentMilli : ℤ := 25000
  deriving DecidableEq, Repr

namespace PriceScenario

/-- `round_half_even`: the quotient of two integers, ties to even. -/
def roundHalfEven (a b : ℤ) : Except ValueError ℤ := do
  throwIf (b ≤ 0) ⟨"b must be positive"⟩
  let quotient := a.fdiv b
  let remainder := a.fmod b
  let twiceRemainder := 2 * remainder
  if twiceRemainder > b ∨ (twiceRemainder = b ∧ quotient.fmod 2 ≠ 0) then pure (quotient + 1)
  else pure quotient

/-- `budget_minor`. -/
def budgetMinor (priceMinor : ℤ) (model : PriceModel) : Except ValueError ℤ := do
  let rounded ← roundHalfEven (priceMinor * model.residualPercentMilli) 100000
  let residual := rounded - model.constantDeductionMinor
  let cap ← roundHalfEven (priceMinor * model.budgetCapPercentMilli) 100000
  pure (min residual cap)

/-- `allowed_centimin`. -/
def allowedCentimin (priceMinor : ℤ) (model : PriceModel) : Except ValueError ℤ := do
  let budget ← budgetMinor priceMinor model
  roundHalfEven (budget * 1000000) model.costPerWorkerMinuteTenThousandths

/-- `allowance_seconds`. -/
def allowanceSeconds (priceMinor : ℤ) (model : PriceModel) : Except ValueError ℤ := do
  let centimin ← allowedCentimin priceMinor model
  roundHalfEven (centimin * 3) 5

end PriceScenario

/-- `_budget_seconds`, in the default context of twenty-eight digits. -/
def decimalBudgetSeconds (allowedWorkerMinutes : ℚ) : Except CalculatorError ℤ := do
  let seconds ← arithmetic (Decimal.quantize 28 (Decimal.mul 28 allowedWorkerMinutes 60) 0)
  pure (toInt seconds)

section Rounding

/-- Rounding by hand is rounding the fraction. -/
theorem scenario_roundHalfEven {a b : ℤ} (hb : 0 < b) :
    PriceScenario.roundHalfEven a b = .ok (Decimal.roundHalfEven (a / b)) := by
  have hbq : (0 : ℚ) < b := by exact_mod_cast hb
  have hquotient : a.fdiv b = a / b := Int.fdiv_eq_ediv_of_nonneg a hb.le
  have hremainder : a.fmod b = a % b := Int.fmod_eq_emod_of_nonneg a hb.le
  have heven : (a / b).fmod 2 = (a / b) % 2 := Int.fmod_eq_emod_of_nonneg _ (by decide)
  have hfloor : ⌊(a : ℚ) / b⌋ = a / b := by
    lift b to ℕ using hb.le
    exact Rat.floor_intCast_div_natCast a b
  have hfract : Int.fract ((a : ℚ) / b) = ((a % b : ℤ) : ℚ) / b := by
    have hdivmod : (a : ℚ) = b * (a / b : ℤ) + (a % b : ℤ) := by
      exact_mod_cast (Int.mul_ediv_add_emod a b).symm
    rw [Int.fract, hfloor, eq_div_iff hbq.ne', sub_mul, div_mul_cancel₀ _ hbq.ne']
    linarith
  have hless : Int.fract ((a : ℚ) / b) < 1 / 2 ↔ 2 * (a % b) < b := by
    rw [hfract, div_lt_div_iff₀ hbq (by norm_num), one_mul]
    exact ⟨fun h => by exact_mod_cast (by linarith : 2 * ((a % b : ℤ) : ℚ) < b),
      fun h => by
        have : 2 * ((a % b : ℤ) : ℚ) < b := by exact_mod_cast h
        linarith⟩
  have hmore : 1 / 2 < Int.fract ((a : ℚ) / b) ↔ b < 2 * (a % b) := by
    rw [hfract, div_lt_div_iff₀ (by norm_num) hbq, one_mul]
    exact ⟨fun h => by exact_mod_cast (by linarith : (b : ℚ) < 2 * ((a % b : ℤ) : ℚ)),
      fun h => by
        have : (b : ℚ) < 2 * ((a % b : ℤ) : ℚ) := by exact_mod_cast h
        linarith⟩
  simp only [PriceScenario.roundHalfEven, throwIf, if_neg (not_le.mpr hb), hquotient, hremainder,
    heven, bind, Except.bind, Decimal.roundHalfEven, hless, hmore, hfloor]
  split_ifs <;> first | rfl | omega

theorem toInt_intCast (n : ℤ) : toInt n = n := by simp [toInt]

end Rounding

section Agreement

variable {budget rate : ℤ}

theorem abs_centimin_le (hrate : 0 < rate) (hbudget : |budget| ≤ 2 ^ 31) :
    |Decimal.roundHalfEven ((budget * 1000000 : ℤ) / rate)| ≤ 10 ^ 16 := by
  have hrateq : (1 : ℚ) ≤ rate := by exact_mod_cast hrate
  have hround := Decimal.abs_roundHalfEven_sub_le ((budget * 1000000 : ℤ) / rate)
  have habs : |((budget * 1000000 : ℤ) : ℚ) / rate| ≤ 2 ^ 31 * 1000000 := by
    have hle : |(budget : ℚ)| ≤ 2 ^ 31 := by exact_mod_cast hbudget
    rw [abs_div, abs_of_pos (by linarith : (0 : ℚ) < rate)]
    refine (div_le_self (abs_nonneg _) hrateq).trans ?_
    push_cast
    rw [abs_mul, abs_of_pos (by norm_num : (0 : ℚ) < 1000000)]
    linarith
  have hq : |((Decimal.roundHalfEven ((budget * 1000000 : ℤ) / rate) : ℤ) : ℚ)| ≤ 10 ^ 16 := by
    rw [abs_le] at *
    constructor <;> linarith [hround.1, hround.2, habs.1, habs.2]
  exact_mod_cast hq

/-- The allowed minutes are the exact quotient, rounded once to a hundredth. -/
theorem calculateAllowedWorkerMinutes_eq (hrate : 0 < rate) (hbudget : |budget| ≤ 2 ^ 31) :
    calculateAllowedWorkerMinutes (some budget) (some (rate / 10000)) =
      .ok (Decimal.roundHalfEven ((budget * 1000000 : ℤ) / rate) / 10 ^ 2) := by
  have hrateq : (0 : ℚ) < rate := by exact_mod_cast hrate
  have hne : (rate : ℚ) / 10000 ≠ 0 := by positivity
  have hquotient : (budget : ℚ) / (rate / 10000) =
      (budget * 1000000 : ℤ) / rate / 10 ^ 2 := by
    push_cast
    field_simp
    ring
  have hround : Decimal.roundHalfEven
      (Decimal.round contextPrec ((budget * 1000000 : ℤ) / rate / 10 ^ 2) * 10 ^ 2) =
        Decimal.roundHalfEven ((budget * 1000000 : ℤ) / rate) := by
    refine Decimal.roundHalfEven_round hrate ?_
    rw [abs_mul, abs_of_pos (by decide : (0 : ℤ) < 1000000), contextPrec]
    omega
  have hcoefficient := abs_centimin_le hrate hbudget
  rw [← hround] at hcoefficient
  have hquantize := Decimal.quantize_eq_ok (hcoefficient.trans_lt
    (by norm_num [contextPrec] : (10 : ℤ) ^ 16 < 10 ^ contextPrec))
  rw [calculateAllowedWorkerMinutes, requireMoney, requireRate, getOr]
  simp only [bind, Except.bind, throwIf, if_neg hne, Decimal.div, hquotient, arithmetic]
  rw [hquantize, hround]

/-- The seconds of a budget of hundredths of a minute are rounded once. -/
theorem decimalBudgetSeconds_eq {centimin : ℤ} (h : |centimin| ≤ 10 ^ 16) :
    decimalBudgetSeconds (centimin / 10 ^ 2) =
      .ok (Decimal.roundHalfEven ((centimin * 3 : ℤ) / (5 : ℤ))) := by
  have hseconds : Decimal.mul 28 (centimin / 10 ^ 2) 60 = (centimin * 3 : ℤ) / (5 : ℤ) := by
    have hdigits : (centimin : ℚ) / 10 ^ 2 * 60 = (centimin * 60 : ℤ) / 10 ^ 2 := by
      push_cast
      ring
    rw [Decimal.mul, Decimal.round_eq_self hdigits]
    · push_cast
      ring
    · rw [abs_mul, abs_of_pos (by decide : (0 : ℤ) < 60)]
      omega
  have hcoefficient : |Decimal.roundHalfEven
    ((centimin * 3 : ℤ) / (5 : ℤ) * 10 ^ 0)| < 10 ^ 28 := by
    have hround := Decimal.abs_roundHalfEven_sub_le ((centimin * 3 : ℤ) / (5 : ℤ) * 10 ^ 0)
    have hle : |(centimin : ℚ)| ≤ 10 ^ 16 := by exact_mod_cast h
    have hq : |((Decimal.roundHalfEven ((centimin * 3 : ℤ) / (5 : ℤ) * 10 ^ 0) : ℤ) : ℚ)| <
        10 ^ 28 := by
      push_cast at hround ⊢
      rw [abs_le] at hround hle
      rw [abs_lt]
      constructor <;> linarith [hround.1, hround.2, hle.1, hle.2]
    exact_mod_cast hq
  rw [decimalBudgetSeconds, hseconds, Decimal.quantize_eq_ok hcoefficient]
  simp [arithmetic, bind, Except.bind, pure, Except.pure, toInt_intCast]

theorem decimalBudgetSeconds_eq_budgetSeconds {centimin : ℤ} (h : |centimin| ≤ 10 ^ 16) :
    decimalBudgetSeconds (centimin / 10 ^ 2) = .ok (budgetSeconds (centimin / 10 ^ 2)) := by
  rw [decimalBudgetSeconds_eq h, budgetSeconds, roundHalfEven]
  congr 2
  push_cast
  ring

/-- The slider and the committed evaluation agree to the unit. -/
theorem scenario_agrees (priceMinor : ℤ) (model : PriceModel) (budget : ℤ)
    (hrate : 0 < model.costPerWorkerMinuteTenThousandths)
    (hbudget : PriceScenario.budgetMinor priceMinor model = .ok budget)
    (hstorage : -2 ^ 31 ≤ budget ∧ budget < 2 ^ 31) :
    ∃ allowed centimin seconds,
      calculateAllowedWorkerMinutes (some budget)
        (some (model.costPerWorkerMinuteTenThousandths / 10000)) = .ok allowed ∧
      PriceScenario.allowedCentimin priceMinor model = .ok centimin ∧
      (centimin : ℚ) = 100 * allowed ∧
      PriceScenario.allowanceSeconds priceMinor model = .ok seconds ∧
      decimalBudgetSeconds allowed = .ok seconds ∧ budgetSeconds allowed = seconds := by
  have habs : |budget| ≤ 2 ^ 31 := abs_le.mpr ⟨hstorage.1, hstorage.2.le⟩
  have hcentimin : PriceScenario.allowedCentimin priceMinor model =
      .ok (Decimal.roundHalfEven ((budget * 1000000 : ℤ) /
        model.costPerWorkerMinuteTenThousandths)) := by
    rw [PriceScenario.allowedCentimin, hbudget]
    exact scenario_roundHalfEven hrate
  have hle := abs_centimin_le hrate habs
  refine ⟨_, _, _, calculateAllowedWorkerMinutes_eq hrate habs, hcentimin, ?_, ?_,
    decimalBudgetSeconds_eq hle, ?_⟩
  · ring
  · rw [PriceScenario.allowanceSeconds, hcentimin]
    exact scenario_roundHalfEven (by decide : (0 : ℤ) < 5)
  · exact Except.ok.inj ((decimalBudgetSeconds_eq_budgetSeconds hle).symm.trans
      (decimalBudgetSeconds_eq hle))

/-- A price on the slider with a rate of 0.7 minor units. -/
theorem scenario_agrees_price :
    let model : PriceModel := ⟨70000, 5000, 7000, 25000⟩
    ∃ allowed centimin seconds,
      calculateAllowedWorkerMinutes (some 25000) (some (7000 / 10000)) = .ok allowed ∧
      PriceScenario.allowedCentimin 100000 model = .ok centimin ∧
      (centimin : ℚ) = 100 * allowed ∧
      PriceScenario.allowanceSeconds 100000 model = .ok seconds ∧
      decimalBudgetSeconds allowed = .ok seconds ∧ budgetSeconds allowed = seconds := by
  intro model
  exact scenario_agrees 100000 model 25000 (by decide) (by decide) (by decide)

end Agreement

end BeyoManager.ItemEconomics
