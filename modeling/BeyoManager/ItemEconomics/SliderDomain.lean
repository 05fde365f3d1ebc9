import BeyoManager.ItemEconomics.PriceSearch
import Mathlib.Data.Nat.Digits.Defs

/-! # The domain of the price slider

The band around the break-even price, in whole steps. Its lower end is moved above the
infeasible price, and may thereby pass the break-even price.
-/

namespace BeyoManager.ItemEconomics

open Transition

/-- `SliderDomain`. -/
structure SliderDomain where
  stepMinor : ℤ
  minMinor : ℤ
  maxMinor : ℤ
  deriving DecidableEq, Repr

namespace PriceScenario

/-- `floor_to_step`. -/
def floorToStep (value : ℚ) (step : ℤ) : Except ValueError ℤ := do
  throwIf (step ≤ 0) ⟨"step must be positive"⟩
  pure (⌊value / step⌋ * step)

/-- `ceil_to_step`. -/
def ceilToStep (value : ℚ) (step : ℤ) : Except ValueError ℤ := do
  throwIf (step ≤ 0) ⟨"step must be positive"⟩
  pure (-⌊-value / step⌋ * step)

/-- `digits`. -/
def digits (value : ℤ) : ℕ := if value = 0 then 1 else (Nat.digits 10 value.natAbs).length

/-- `two_significant_digits`. -/
def twoSignificantDigits (a b : ℤ) : Except ValueError ℤ := do
  throwIf (b ≤ 0) ⟨"b must be positive"⟩
  let integerPart := a.fdiv b
  let scale : ℤ := 10 ^ (digits integerPart - 2)
  let rounded ← roundHalfEven a (b * scale)
  pure (max 1 (rounded * scale))

/-- `slider_domain`. -/
def sliderDomain (breakEvenMinor : Option ℤ) (quantity infeasibleMinor : ℤ) :
    Except ValueError (Option SliderDomain) :=
  match breakEvenMinor with
  | none => pure none
  | some breakEven => do
    let divisor := max 1 quantity
    let stepPerPiece ← twoSignificantDigits breakEven (80 * divisor)
    let stepMinor := divisor * stepPerPiece
    let rawLow : ℚ := 35 * breakEven / 100
    let rawHigh : ℚ := 135 * breakEven / 100
    let low ← floorToStep rawLow stepMinor
    let feasible ← ceilToStep (infeasibleMinor + 1 : ℤ) stepMinor
    let minMinor := max low feasible
    let maxMinor ← ceilToStep rawHigh stepMinor
    if maxMinor ≤ minMinor then pure none
    else pure (some ⟨stepMinor, minMinor, maxMinor⟩)

end PriceScenario

open PriceScenario

section Steps

variable {value : ℚ} {step result : ℤ}

theorem floorToStep_ok (h : floorToStep value step = .ok result) :
    step ∣ result ∧ (result : ℚ) ≤ value := by
  simp only [floorToStep, throwIf_bind_eq_ok, pure, Except.pure, Except.ok.injEq, not_le] at h
  obtain ⟨hpos, rfl⟩ := h
  have hposq : (0 : ℚ) < step := by exact_mod_cast hpos
  refine ⟨Dvd.intro_left _ rfl, ?_⟩
  push_cast
  exact (le_div_iff₀ hposq).mp (Int.floor_le _)

theorem ceilToStep_ok (h : ceilToStep value step = .ok result) :
    IsLeast {n | step ∣ n ∧ value ≤ (n : ℚ)} result := by
  simp only [ceilToStep, throwIf_bind_eq_ok, pure, Except.pure, Except.ok.injEq, not_le] at h
  obtain ⟨hpos, rfl⟩ := h
  have hposq : (0 : ℚ) < step := by exact_mod_cast hpos
  have hceil : -⌊-value / step⌋ = ⌈value / step⌉ := by
    rw [neg_div, Int.floor_neg, neg_neg]
  rw [hceil]
  constructor
  · refine ⟨Dvd.intro_left _ rfl, ?_⟩
    push_cast
    exact (div_le_iff₀ hposq).mp (Int.le_ceil _)
  · rintro _ ⟨⟨n, rfl⟩, hle⟩
    rw [mul_comm step n]
    refine mul_le_mul_of_nonneg_right (Int.ceil_le.mpr ?_) hpos.le
    rw [div_le_iff₀ hposq]
    push_cast at hle
    linarith

theorem one_le_twoSignificantDigits {a b : ℤ} (h : twoSignificantDigits a b = .ok result) :
    1 ≤ result := by
  simp only [twoSignificantDigits, bind_eq_ok, pure, Except.pure, Except.ok.injEq] at h
  obtain ⟨-, -, rounded, -, rfl⟩ := h
  exact le_max_left _ _

end Steps

section Domain

variable {breakEven : Option ℤ} {quantity infeasible : ℤ} {domain : SliderDomain}

theorem sliderDomain_some (h : sliderDomain breakEven quantity infeasible = .ok (some domain)) :
    ∃ price stepPerPiece low feasible, breakEven = some price ∧
      twoSignificantDigits price (80 * max 1 quantity) = .ok stepPerPiece ∧
      domain.stepMinor = max 1 quantity * stepPerPiece ∧
      floorToStep (35 * price / 100) domain.stepMinor = .ok low ∧
      ceilToStep (infeasible + 1 : ℤ) domain.stepMinor = .ok feasible ∧
      domain.minMinor = max low feasible ∧
      ceilToStep (135 * price / 100) domain.stepMinor = .ok domain.maxMinor ∧
      domain.minMinor < domain.maxMinor := by
  cases breakEven with
  | none => simp [sliderDomain, pure, Except.pure] at h
  | some price =>
    simp only [sliderDomain, bind_eq_ok] at h
    obtain ⟨stepPerPiece, hstep, low, hlow, feasible, hfeasible, maxMinor, hmax, hdomain⟩ := h
    split_ifs at hdomain with hband
    · cases hdomain
    · obtain rfl := Option.some.inj (Except.ok.inj hdomain)
      exact ⟨price, stepPerPiece, low, feasible, rfl, hstep, rfl, hlow, hfeasible, rfl, hmax,
        not_le.mp hband⟩

theorem breakEvenPriceMinor_nonneg {model : PriceModel} {target price : ℤ}
    (hrate : 0 < model.costPerWorkerMinuteTenThousandths)
    (h : breakEvenPriceMinor model target = .ok (some price)) : 0 ≤ price := by
  obtain ⟨hresidual, hcap, -, hrun⟩ := breakEvenPriceMinor_some h
  obtain ⟨result, hresult, hsome, -⟩ :=
    leastPriceForSeconds_result ⟨hresidual.le, hcap.le, hrate⟩ target
  obtain rfl := Except.ok.inj (hrun.symm.trans hresult)
  exact ((hsome price).mp rfl).1.1

theorem rate_pos_of_infeasible {model : PriceModel}
    (h : infeasibleAtOrBelowMinor model = .ok infeasible) :
    0 < model.costPerWorkerMinuteTenThousandths := by
  by_contra hrate
  have hseconds : allowanceSeconds 0 model = .error ⟨"b must be positive"⟩ := by
    rw [allowanceSeconds, allowedCentimin, budgetMinor_eq]
    simp [PriceScenario.roundHalfEven, throwIf, not_lt.mp hrate, bind, Except.bind]
  simp [infeasibleAtOrBelowMinor, leastPriceForSeconds, reachesSeconds, hseconds, bind,
    Except.bind] at h

/-- The domain is a band of whole steps above the infeasible price. The break-even price is
in it exactly when a step lies above the infeasible price and not above the break-even one. -/
theorem slider_domain_band (model : PriceModel) (target quantity infeasible : ℤ)
    (breakEven : Option ℤ) (domain : SliderDomain)
    (hbreak : breakEvenPriceMinor model target = .ok breakEven)
    (hinfeasible : infeasibleAtOrBelowMinor model = .ok infeasible)
    (h : sliderDomain breakEven quantity infeasible = .ok (some domain)) :
    0 < domain.stepMinor ∧ max 1 quantity ∣ domain.stepMinor ∧
    domain.stepMinor ∣ domain.minMinor ∧ domain.stepMinor ∣ domain.maxMinor ∧
    domain.minMinor < domain.maxMinor ∧ infeasible < domain.minMinor ∧
    ∃ price, breakEven = some price ∧ price ≤ domain.maxMinor ∧
      (domain.minMinor ≤ price ↔
        ∃ n, domain.stepMinor ∣ n ∧ infeasible < n ∧ n ≤ price) := by
  obtain ⟨price, stepPerPiece, low, feasible, rfl, hstep, hstepMinor, hlow, hfeasible, hmin, hmax,
    hband⟩ := sliderDomain_some h
  have hnonneg := breakEvenPriceMinor_nonneg (rate_pos_of_infeasible hinfeasible) hbreak
  have hpriceq : (0 : ℚ) ≤ price := by exact_mod_cast hnonneg
  have hpiece := one_le_twoSignificantDigits hstep
  obtain ⟨hlowDvd, hlowLe⟩ := floorToStep_ok hlow
  obtain ⟨⟨hfeasibleDvd, hfeasibleLe⟩, hfeasibleLeast⟩ := ceilToStep_ok hfeasible
  obtain ⟨⟨hmaxDvd, hmaxLe⟩, -⟩ := ceilToStep_ok hmax
  have hinf : infeasible + 1 ≤ feasible := by exact_mod_cast hfeasibleLe
  have hlowPrice : low ≤ price := by
    have hlowq : (low : ℚ) ≤ price := by linarith
    exact_mod_cast hlowq
  refine ⟨?_, ?_, ?_, hmaxDvd, hband, ?_, price, rfl, ?_, ?_⟩
  · rw [hstepMinor]
    exact Int.mul_pos (by omega) (by omega)
  · rw [hstepMinor]
    exact Dvd.intro _ rfl
  · rw [hmin]
    rcases max_choice low feasible with hchoice | hchoice <;> rw [hchoice]
    · exact hlowDvd
    · exact hfeasibleDvd
  · omega
  · have hmaxq : (price : ℚ) ≤ domain.maxMinor := by linarith
    exact_mod_cast hmaxq
  · constructor
    · intro hle
      exact ⟨feasible, hfeasibleDvd, by omega, by omega⟩
    · rintro ⟨n, hdvd, hlt, hle⟩
      have hmem : n ∈ {n | domain.stepMinor ∣ n ∧ ((infeasible + 1 : ℤ) : ℚ) ≤ (n : ℚ)} :=
        ⟨hdvd, by exact_mod_cast (by omega : infeasible + 1 ≤ n)⟩
      have := hfeasibleLeast hmem
      omega

/-- The band of a model of 22 percent with a fixed deduction. -/
theorem slider_domain_band_deduction :
    let model : PriceModel := ⟨22000, 150000, 13000000, 25000⟩
    let domain : SliderDomain := ⟨23400, 702000, 2574000⟩
    0 < domain.stepMinor ∧ 681847 < domain.minMinor ∧
      ∃ price, breakEvenPriceMinor model 12300 = .ok (some price) ∧
        price ≤ domain.maxMinor := by
  intro model domain
  have hbreak : breakEvenPriceMinor model 12300 = .ok (some 1893153) := by decide +kernel
  obtain ⟨hstep, -, -, -, -, hmin, price, hprice, hmax, -⟩ :=
    slider_domain_band model 12300 6 681847 (some 1893153) domain hbreak (by decide +kernel)
      (by decide +kernel)
  exact ⟨hstep, hmin, price, hprice ▸ hbreak, hmax⟩

/-- The first step above the infeasible price can pass the break-even price. -/
theorem slider_minimum_above_breakEven :
    let model : PriceModel := ⟨100000, 1001, 10000, 25000⟩
    breakEvenPriceMinor model 60 = .ok (some 1002) ∧
      infeasibleAtOrBelowMinor model = .ok 1001 ∧
      sliderDomain (some 1002) 1 1001 = .ok (some ⟨13, 1014, 1365⟩) ∧ ¬ (1014 : ℤ) ≤ 1002 := by
  decide +kernel

end Domain

end BeyoManager.ItemEconomics
