import BeyoManager.ItemEconomics.PriceScenario
import BeyoManager.Library.Bisection

/-! # The price that pays for some seconds

The allowance of a price is rounded four times, each time monotonically, so the search by
doubling and halving finds the least price that reaches a target. The break-even price and
the infeasible price are read off that search.
-/

namespace BeyoManager.ItemEconomics

open Transition

/-- `SEARCH_CAP_MINOR`. -/
def SEARCH_CAP_MINOR : ℤ := 2 ^ 40

namespace PriceScenario

/-- The test of both loops of `_least_price_for_seconds`. -/
def reachesSeconds (model : PriceModel) (targetSeconds price : ℤ) : Except ValueError Bool := do
  let seconds ← allowanceSeconds price model
  pure (decide (targetSeconds ≤ seconds))

/-- `_least_price_for_seconds`. -/
def leastPriceForSeconds (model : PriceModel) (targetSeconds : ℤ) :
    Except ValueError (Option ℤ) := do
  if ← reachesSeconds model targetSeconds 0 then pure (some 0)
  else
    let high ← Bisection.double (reachesSeconds model targetSeconds) SEARCH_CAP_MINOR 1 (by decide)
    if SEARCH_CAP_MINOR < high then pure none
    else
      let price ← Bisection.bisect (reachesSeconds model targetSeconds) 0 high
      pure (some price)

/-- `break_even_price_minor`. -/
def breakEvenPriceMinor (model : PriceModel) (typicalTotalSeconds : ℤ) :
    Except ValueError (Option ℤ) :=
  if model.residualPercentMilli ≤ 0 ∨ model.budgetCapPercentMilli ≤ 0 ∨ typicalTotalSeconds = 0
  then pure none
  else leastPriceForSeconds model typicalTotalSeconds

/-- `infeasible_at_or_below_minor`. -/
def infeasibleAtOrBelowMinor (model : PriceModel) : Except ValueError ℤ := do
  match ← leastPriceForSeconds model 1 with
  | none => pure SEARCH_CAP_MINOR
  | some leastFeasible => pure (leastFeasible - 1)

end PriceScenario

/-- The percentages of the model are not negative and its rate is positive. -/
structure PriceModel.WellFormed (model : PriceModel) : Prop where
  residual_nonneg : 0 ≤ model.residualPercentMilli
  cap_nonneg : 0 ≤ model.budgetCapPercentMilli
  rate_pos : 0 < model.costPerWorkerMinuteTenThousandths

open PriceScenario

section Allowance

variable (model : PriceModel)

def scenarioBudget (price : ℤ) : ℤ :=
  min (roundHalfEven ((price * model.residualPercentMilli : ℤ) / (100000 : ℤ)) -
      model.constantDeductionMinor)
    (roundHalfEven ((price * model.budgetCapPercentMilli : ℤ) / (100000 : ℤ)))

def scenarioCentimin (price : ℤ) : ℤ :=
  roundHalfEven ((scenarioBudget model price * 1000000 : ℤ) /
    model.costPerWorkerMinuteTenThousandths)

/-- The seconds that a price allows. -/
def scenarioSeconds (price : ℤ) : ℤ :=
  roundHalfEven ((scenarioCentimin model price * 3 : ℤ) / (5 : ℤ))

variable {model}

theorem budgetMinor_eq (price : ℤ) :
    budgetMinor price model = .ok (scenarioBudget model price) := by
  have hscale : (0 : ℤ) < 100000 := by decide
  rw [budgetMinor, scenario_roundHalfEven hscale, scenario_roundHalfEven hscale]
  rfl

theorem allowanceSeconds_eq (hrate : 0 < model.costPerWorkerMinuteTenThousandths) (price : ℤ) :
    allowanceSeconds price model = .ok (scenarioSeconds model price) := by
  have hcentimin : allowedCentimin price model = .ok (scenarioCentimin model price) := by
    rw [allowedCentimin, budgetMinor_eq]
    exact scenario_roundHalfEven hrate
  rw [allowanceSeconds, hcentimin]
  exact scenario_roundHalfEven (by decide : (0 : ℤ) < 5)

theorem roundHalfEven_div_mono {a b c : ℤ} (hc : 0 < c) (hab : a ≤ b) :
    roundHalfEven ((a : ℚ) / c) ≤ roundHalfEven ((b : ℚ) / c) := by
  have hcq : (0 : ℚ) < c := by exact_mod_cast hc
  have habq : (a : ℚ) ≤ b := by exact_mod_cast hab
  apply Decimal.roundHalfEven_mono
  gcongr

theorem roundHalfEven_div_nonpos {a c : ℤ} (hc : 0 < c) (ha : a ≤ 0) :
    roundHalfEven ((a : ℚ) / c) ≤ 0 := by
  have hzero : roundHalfEven (((0 : ℤ) : ℚ) / c) = 0 := by
    have := Decimal.roundHalfEven_intCast 0
    simpa [roundHalfEven] using this
  exact hzero ▸ roundHalfEven_div_mono hc ha

theorem scenarioBudget_mono (hmodel : model.WellFormed) : Monotone (scenarioBudget model) := by
  intro p q hpq
  unfold scenarioBudget
  have hscale : (0 : ℤ) < 100000 := by decide
  have hresidualRound :=
    roundHalfEven_div_mono hscale (mul_le_mul_of_nonneg_right hpq hmodel.residual_nonneg)
  have hcapRound :=
    roundHalfEven_div_mono hscale (mul_le_mul_of_nonneg_right hpq hmodel.cap_nonneg)
  exact min_le_min (by omega) hcapRound

theorem scenarioSeconds_mono (hmodel : model.WellFormed) : Monotone (scenarioSeconds model) := by
  intro p q hpq
  have hbudget := scenarioBudget_mono hmodel hpq
  have hcentimin : scenarioCentimin model p ≤ scenarioCentimin model q :=
    roundHalfEven_div_mono hmodel.rate_pos (by omega)
  exact roundHalfEven_div_mono (by decide) (by omega)

theorem scenarioSeconds_zero_nonpos (hrate : 0 < model.costPerWorkerMinuteTenThousandths) :
    scenarioSeconds model 0 ≤ 0 := by
  have hbudget : scenarioBudget model 0 ≤ 0 := by
    refine (min_le_right _ _).trans ?_
    exact roundHalfEven_div_nonpos (by decide) (by simp)
  have hcentimin : scenarioCentimin model 0 ≤ 0 :=
    roundHalfEven_div_nonpos hrate (by omega)
  exact roundHalfEven_div_nonpos (by decide) (by omega)

end Allowance

section Search

variable {model : PriceModel} {target : ℤ}

/-- The prices of the search that reach a target. -/
def payingPrices (model : PriceModel) (target : ℤ) : Set ℤ :=
  {price | 0 ≤ price ∧ price ≤ SEARCH_CAP_MINOR ∧ target ≤ scenarioSeconds model price}

theorem reachesSeconds_eq (hrate : 0 < model.costPerWorkerMinuteTenThousandths) (price : ℤ) :
    reachesSeconds model target price = .ok (decide (target ≤ scenarioSeconds model price)) := by
  rw [reachesSeconds, allowanceSeconds_eq hrate]
  rfl

/-- The search finds the least price that pays, or there is none up to the cap. -/
theorem leastPriceForSeconds_spec (hmodel : model.WellFormed) (target : ℤ) :
    (∃ price, leastPriceForSeconds model target = .ok (some price) ∧
      IsLeast (payingPrices model target) price) ∨
    (leastPriceForSeconds model target = .ok none ∧
      ∀ price ≤ SEARCH_CAP_MINOR, scenarioSeconds model price < target) := by
  have hmono := scenarioSeconds_mono hmodel
  have htest := @reachesSeconds_eq model target hmodel.rate_pos
  by_cases hzero : target ≤ scenarioSeconds model 0
  · left
    refine ⟨0, ?_, ⟨le_rfl, by decide, hzero⟩, fun price hprice => hprice.1⟩
    rw [leastPriceForSeconds, htest]
    simp [hzero, bind, Except.bind, pure, Except.pure]
  have hrun : leastPriceForSeconds model target =
      (Bisection.double (reachesSeconds model target) SEARCH_CAP_MINOR 1 (by decide)).bind
        fun high => if SEARCH_CAP_MINOR < high then .ok none
          else (Bisection.bisect (reachesSeconds model target) 0 high).bind fun price =>
            .ok (some price) := by
    rw [leastPriceForSeconds, htest]
    simp [hzero, bind, Except.bind, pure, Except.pure]
  have hpower : SEARCH_CAP_MINOR = 1 * 2 ^ 40 := by decide
  rcases Bisection.double_spec htest 40 (by decide) hpower with
    ⟨high, hdouble, hpos, hle, hhigh⟩ | ⟨high, hdouble, hlt, hnone⟩
  · obtain ⟨price, hbisect, hlow, hprice, hreached, hbefore⟩ :=
      Bisection.bisect_spec htest hzero hhigh hpos
    left
    refine ⟨price, ?_, ⟨hlow.le, hprice.trans hle, hreached⟩, fun other hother => ?_⟩
    · rw [hrun, hdouble]
      simp [Except.bind, if_neg (not_lt.mpr hle), hbisect]
    · exact (Bisection.isLeast_of_step (P := fun n => target ≤ scenarioSeconds model n)
        (fun m n hmn hm => hm.trans (hmono hmn)) hreached hbefore).2 hother.2.2
  · right
    refine ⟨?_, fun price hprice => ?_⟩
    · rw [hrun, hdouble]
      simp [Except.bind, if_pos hlt]
    · exact lt_of_le_of_lt (hmono hprice) (not_le.mp hnone)

/-- What the search returns, in terms of the prices that pay. -/
theorem leastPriceForSeconds_result (hmodel : model.WellFormed) (target : ℤ) :
    ∃ result, leastPriceForSeconds model target = .ok result ∧
      (∀ price, result = some price ↔ IsLeast (payingPrices model target) price) ∧
      (result = none ↔ payingPrices model target = ∅) := by
  rcases leastPriceForSeconds_spec hmodel target with ⟨price, hrun, hleast⟩ | ⟨hrun, hnone⟩
  · refine ⟨some price, hrun, fun other => ?_, ?_⟩
    · constructor
      · rintro ⟨⟩
        exact hleast
      · intro hother
        rw [hleast.unique hother]
    · have hne : payingPrices model target ≠ ∅ := Set.Nonempty.ne_empty ⟨price, hleast.1⟩
      simp [hne]
  · have hempty : payingPrices model target = ∅ := by
      ext price
      simp only [Set.mem_empty_iff_false, iff_false]
      rintro ⟨-, hle, hpays⟩
      exact absurd hpays (not_le.mpr (hnone price hle))
    refine ⟨none, hrun, fun other => ?_, by simp [hempty]⟩
    simp [hempty, IsLeast]

theorem scenarioSeconds_lt_of_lt_least {price other : ℤ}
    (hleast : IsLeast (payingPrices model target) price) (hother : 0 ≤ other)
    (hlt : other < price) : scenarioSeconds model other < target := by
  by_contra hpays
  have hmem : other ∈ payingPrices model target :=
    ⟨hother, hlt.le.trans hleast.1.2.1, not_lt.mp hpays⟩
  exact absurd (hleast.2 hmem) (not_le.mpr hlt)

theorem breakEvenPriceMinor_some {price : ℤ}
    (h : breakEvenPriceMinor model target = .ok (some price)) :
    0 < model.residualPercentMilli ∧ 0 < model.budgetCapPercentMilli ∧ target ≠ 0 ∧
      leastPriceForSeconds model target = .ok (some price) := by
  unfold breakEvenPriceMinor at h
  split_ifs at h with hguard
  · cases h
  · push Not at hguard
    exact ⟨hguard.1, hguard.2.1, hguard.2.2, h⟩

/-- Up to the infeasible price nothing is paid for, and above it something is. -/
theorem infeasibleAtOrBelowMinor_spec (hmodel : model.WellFormed) :
    ∃ infeasible, infeasibleAtOrBelowMinor model = .ok infeasible ∧ 0 ≤ infeasible ∧
      infeasible ≤ SEARCH_CAP_MINOR ∧
      (∀ price ≤ infeasible, scenarioSeconds model price < 1) ∧
      (infeasible < SEARCH_CAP_MINOR → 1 ≤ scenarioSeconds model (infeasible + 1)) := by
  have hmono := scenarioSeconds_mono hmodel
  rcases leastPriceForSeconds_spec hmodel 1 with ⟨price, hrun, hleast⟩ | ⟨hrun, hnone⟩
  · have hpos : 0 < price := by
      rcases hleast.1.1.lt_or_eq with hpos | hzero
      · exact hpos
      · have hpays := hleast.1.2.2
        have := scenarioSeconds_zero_nonpos hmodel.rate_pos
        rw [← hzero] at hpays
        omega
    refine ⟨price - 1, ?_, by omega, ?_, fun other hother => ?_, fun _ => ?_⟩
    · rw [infeasibleAtOrBelowMinor, hrun]
      rfl
    · have := hleast.1.2.1
      omega
    · have hbefore := scenarioSeconds_lt_of_lt_least hleast (by omega : 0 ≤ price - 1) (by omega)
      exact lt_of_le_of_lt (hmono hother) hbefore
    · rw [sub_add_cancel]
      exact hleast.1.2.2
  · refine ⟨SEARCH_CAP_MINOR, ?_, by decide, le_rfl, hnone, fun h => absurd h (lt_irrefl _)⟩
    rw [infeasibleAtOrBelowMinor, hrun]
    rfl

/-- The allowance grows with the price, the search ends at the least price that reaches its
target, and the two reported prices are where the allowance reaches theirs. -/
theorem price_search_finds_least (model : PriceModel) (hmodel : model.WellFormed) :
    (∀ price, allowanceSeconds price model = .ok (scenarioSeconds model price)) ∧
    Monotone (scenarioSeconds model) ∧
    (∀ target, ∃ result, leastPriceForSeconds model target = .ok result ∧
      (∀ price, result = some price ↔ IsLeast (payingPrices model target) price) ∧
      (result = none ↔ payingPrices model target = ∅)) ∧
    (∀ target price, breakEvenPriceMinor model target = .ok (some price) →
      target ≤ scenarioSeconds model price ∧
      ∀ other, 0 ≤ other → other < price → scenarioSeconds model other < target) ∧
    ∃ infeasible, infeasibleAtOrBelowMinor model = .ok infeasible ∧
      (∀ price ≤ infeasible, scenarioSeconds model price < 1) ∧
      (infeasible < SEARCH_CAP_MINOR → 1 ≤ scenarioSeconds model (infeasible + 1)) := by
  refine ⟨allowanceSeconds_eq hmodel.rate_pos, scenarioSeconds_mono hmodel,
    leastPriceForSeconds_result hmodel, ?_, ?_⟩
  · intro target price h
    obtain ⟨-, -, -, hrun⟩ := breakEvenPriceMinor_some h
    obtain ⟨result, hresult, hsome, -⟩ := leastPriceForSeconds_result hmodel target
    obtain rfl := Except.ok.inj (hrun.symm.trans hresult)
    have hleast := (hsome price).mp rfl
    exact ⟨hleast.1.2.2, fun other => scenarioSeconds_lt_of_lt_least hleast⟩
  · obtain ⟨infeasible, hrun, -, -, hbelow, habove⟩ := infeasibleAtOrBelowMinor_spec hmodel
    exact ⟨infeasible, hrun, hbelow, habove⟩

/-- The search for a model of 22 percent and 1300 units a minute. -/
theorem price_search_finds_least_proportional :
    let model : PriceModel := ⟨22000, 0, 13000000, 25000⟩
    Monotone (scenarioSeconds model) ∧ ∀ target, ∃ result,
      leastPriceForSeconds model target = .ok result := by
  intro model
  obtain ⟨-, hmono, hsearch, -⟩ :=
    price_search_finds_least model ⟨by decide, by decide, by decide⟩
  exact ⟨hmono, fun target => (hsearch target).imp fun _ h => h.1⟩

end Search

end BeyoManager.ItemEconomics
