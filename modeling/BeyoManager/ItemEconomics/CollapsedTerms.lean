import BeyoManager.ItemEconomics.PriceSearch
import Mathlib.Algebra.Order.Group.MinMax

/-! # Cost terms collapsed for the slider

The scenario adds the percentages up and rounds once; the committed evaluation rounds each
term on its own. Each rounding is off by at most half a unit, and the cap on the budget is
the same on both sides.
-/

namespace BeyoManager.ItemEconomics

open Transition

/-- `CostModelTermInput`. -/
structure CostModelTermInput extends CostModelTerm where
  isDeleted : Option Bool
  deriving DecidableEq, Repr

namespace PriceScenario

def percentMilli (percent : ℚ) : Except CalculatorError ℤ := do
  let quantized ← arithmetic (Decimal.quantize 28 percent 3)
  throwIf (percent ≠ quantized)
    (shapeError .percentageOfExpectedSalePrice "percent_value scale")
  pure (toInt (Decimal.round 28 (percent * 1000)))

/-- The loop of `collapse_terms`, from the coefficients so far. -/
def collapseFrom (purchaseCostMinor : Option ℤ) : List CostModelTermInput → ℤ → ℤ →
    Except CalculatorError (Option (ℤ × ℤ))
  | [], residual, constant => .ok (some (residual, constant))
  | term :: terms, residual, constant =>
    if term.isDeleted = some true then collapseFrom purchaseCostMinor terms residual constant
    else match term.calculationType, term.percentValue, term.fixedAmountMinor with
      | .percentageOfExpectedSalePrice, some percent, none => do
        let milli ← percentMilli percent
        collapseFrom purchaseCostMinor terms (residual - milli) constant
      | .fixedAmount, none, some amount =>
        collapseFrom purchaseCostMinor terms residual (constant + amount)
      | .itemPurchaseCost, none, none =>
        match purchaseCostMinor with
        | none => .ok none
        | some cost => collapseFrom purchaseCostMinor terms residual (constant + cost)
      | calculationType, _, _ =>
        .error (shapeError calculationType "percent_value/fixed_amount_minor")

/-- `collapse_terms`. -/
def collapseTerms (terms : List CostModelTermInput) (purchaseCostMinor : Option ℤ) :
    Except CalculatorError (Option (ℤ × ℤ)) :=
  collapseFrom purchaseCostMinor terms 100000 0

end PriceScenario

/-- The terms that a commit reads. -/
def activeTerms (terms : List CostModelTermInput) : List CostModelTerm :=
  (terms.filter fun term => term.isDeleted ≠ some true).map CostModelTermInput.toCostModelTerm

/-- A decimal column of six digits, three of them after the point. -/
def IsPercentColumn (percent : ℚ) : Prop := ∃ milli : ℤ, percent = milli / 1000 ∧ |milli| < 10 ^ 6

open PriceScenario

section Exact

variable {price amount : ℤ} {percent : ℚ}

theorem quantize_percentage {milli : ℤ} (hdigits : |price * milli| < 10 ^ contextPrec) :
    Decimal.div contextPrec (Decimal.mul contextPrec price (milli / 1000)) 100 =
      .ok ((price * milli : ℤ) / (100000 : ℤ)) := by
  have hmul : Decimal.mul contextPrec price (milli / 1000) = (price * milli : ℤ) / 10 ^ 3 := by
    have hform : (price : ℚ) * (milli / 1000) = (price * milli : ℤ) / 10 ^ 3 := by
      push_cast
      ring
    rw [Decimal.mul, Decimal.round_eq_self hform hdigits, hform]
  have hdiv : Decimal.round contextPrec ((price * milli : ℤ) / 10 ^ 3 / 100) =
      (price * milli : ℤ) / (100000 : ℤ) := by
    have hform : ((price * milli : ℤ) : ℚ) / 10 ^ 3 / 100 = (price * milli : ℤ) / 10 ^ 5 := by ring
    rw [Decimal.round_eq_self hform hdigits]
    push_cast
    ring
  rw [hmul, Decimal.div, if_neg (by norm_num), hdiv]

theorem quantize_zero_ok {x y : ℚ} (h : arithmetic (Decimal.quantize contextPrec x 0) = .ok y) :
    toInt y = roundHalfEven x := by
  unfold Decimal.quantize at h
  simp only [pow_zero, mul_one, div_one] at h
  split_ifs at h
  · cases h
  · obtain rfl := Except.ok.inj h
    exact toInt_intCast _

theorem percentMilli_eq {milli : ℤ} (hdigits : |milli| < 10 ^ 6) :
    percentMilli (milli / 1000) = .ok milli := by
  have hscaled : (milli : ℚ) / 1000 * 10 ^ 3 = milli := by ring
  have hquantize : Decimal.quantize 28 ((milli : ℚ) / 1000) 3 = .ok (milli / 1000) := by
    rw [Decimal.quantize_eq_ok]
    · rw [hscaled, Decimal.roundHalfEven_intCast]
      norm_num
    · rw [hscaled, Decimal.roundHalfEven_intCast]
      omega
  have hround : Decimal.round 28 (milli : ℚ) = milli :=
    Decimal.round_eq_self (by norm_num : (milli : ℚ) = milli / 10 ^ 0) (by omega)
  simp [percentMilli, hquantize, arithmetic, throwIf, hround, bind, Except.bind, pure, Except.pure,
    toInt_intCast]

theorem calculatePercentageTermAmount_ok {milli : ℤ}
    (hdigits : |price * milli| < 10 ^ contextPrec)
    (h : calculatePercentageTermAmount (some price) (some (milli / 1000)) = .ok amount) :
    amount = roundHalfEven ((price * milli : ℤ) / (100000 : ℤ)) := by
  simp only [calculatePercentageTermAmount, requirePrice, requireMoney, requireRate, getOr,
    quantize_percentage hdigits, bind_eq_ok, pure, Except.pure, Except.ok.injEq, arithmetic,
    exists_eq_left'] at h
  obtain ⟨quantized, hquantized, rfl⟩ := h
  exact quantize_zero_ok hquantized

end Exact

section Error

variable {price : ℤ} {purchaseCostMinor : Option ℤ}

def roundings (term : CostModelTerm) : ℕ :=
  if term.calculationType = .percentageOfExpectedSalePrice then 1 else 0

def committedAmount (price : ℤ) (purchaseCostMinor : Option ℤ) (term : CostModelTerm) :
    Except CalculatorError ℤ :=
  calculateTermAmount term.calculationType (some price) term.percentValue term.fixedAmountMinor
    purchaseCostMinor

/-- A term adds to the two coefficients what the evaluation subtracts from the price, up to
the rounding of a percentage. -/
theorem collapseFrom_term {term : CostModelTermInput} {amount : ℤ} (hprice : |price| < 10 ^ 44)
    (hactive : term.isDeleted ≠ some true)
    (hpercent : ∀ percent ∈ term.percentValue, IsPercentColumn percent)
    (h : committedAmount price purchaseCostMinor term.toCostModelTerm = .ok amount) :
    ∃ milli constant : ℤ,
      (∀ terms residual total, collapseFrom purchaseCostMinor (term :: terms) residual total =
        collapseFrom purchaseCostMinor terms (residual - milli) (total + constant)) ∧
      |(amount : ℚ) - ((price * milli : ℤ) / (100000 : ℤ) + constant)| ≤
        (roundings term.toCostModelTerm : ℚ) / 2 ∧
      (roundings term.toCostModelTerm = 0 → milli = 0) := by
  obtain ⟨⟨name, calculationType, percentValue, fixedAmountMinor⟩, isDeleted⟩ := term
  simp only [committedAmount, calculateTermAmount, termShape, requirePrice, requireMoney,
    bind_eq_ok, throwIf_eq_ok, Except.ok.injEq, exists_eq_left'] at h
  obtain ⟨-, ⟨-, hpresence, -⟩, h⟩ := h
  simp only [collapseFrom, if_neg hactive]
  cases calculationType with
  | percentageOfExpectedSalePrice =>
    obtain ⟨percent, rfl⟩ : ∃ percent, percentValue = some percent := by
      cases percentValue <;> simp_all [presenceValid]
    obtain rfl : fixedAmountMinor = none := by
      cases fixedAmountMinor <;> simp_all [presenceValid]
    obtain ⟨milli, rfl, hmilli⟩ := hpercent percent rfl
    have hdigits : |price * milli| < 10 ^ contextPrec := by
      rw [abs_mul, contextPrec]
      calc |price| * |milli| < 10 ^ 44 * 10 ^ 6 :=
            mul_lt_mul'' hprice hmilli (abs_nonneg _) (abs_nonneg _)
        _ = 10 ^ 50 := by norm_num
    obtain ⟨-, h⟩ := throwIf_bind_eq_ok.mp h
    obtain rfl := calculatePercentageTermAmount_ok hdigits h
    refine ⟨milli, 0, fun terms residual total => ?_, ?_, by simp [roundings]⟩
    · simp only [percentMilli_eq hmilli, add_zero]
      rfl
    · have := Decimal.abs_roundHalfEven_sub_le ((price * milli : ℤ) / (100000 : ℤ))
      simpa [roundings, roundHalfEven] using this
  | fixedAmount =>
    obtain rfl : percentValue = none := by
      cases percentValue <;> simp_all [presenceValid]
    obtain ⟨fixed, rfl⟩ : ∃ fixed, fixedAmountMinor = some fixed := by
      cases fixedAmountMinor <;> simp_all [presenceValid]
    obtain rfl := Except.ok.inj h
    exact ⟨0, fixed, fun terms residual total => by rw [sub_zero], by simp [roundings],
      fun _ => rfl⟩
  | itemPurchaseCost =>
    obtain rfl : percentValue = none := by
      cases percentValue <;> simp_all [presenceValid]
    obtain rfl : fixedAmountMinor = none := by
      cases fixedAmountMinor <;> simp_all [presenceValid]
    cases purchaseCostMinor with
    | none => cases h
    | some cost =>
      obtain rfl := Except.ok.inj h
      exact ⟨0, cost, fun terms residual total => by rw [sub_zero], by simp [roundings],
        fun _ => rfl⟩

/-- The coefficients of some terms and the sum of their amounts. -/
theorem collapseFrom_terms {terms : List CostModelTermInput} {amounts : List ℤ}
    (hprice : |price| < 10 ^ 44)
    (hpercent : ∀ term ∈ terms, ∀ percent ∈ term.percentValue, IsPercentColumn percent)
    (h : (activeTerms terms).mapM (committedAmount price purchaseCostMinor) = .ok amounts) :
    ∃ milli constant : ℤ,
      (∀ residual total, collapseFrom purchaseCostMinor terms residual total =
        .ok (some (residual - milli, total + constant))) ∧
      |(amounts.sum : ℚ) - ((price * milli : ℤ) / (100000 : ℤ) + constant)| ≤
        (((activeTerms terms).map roundings).sum : ℚ) / 2 ∧
      (((activeTerms terms).map roundings).sum = 0 → milli = 0) := by
  induction terms generalizing amounts with
  | nil =>
    obtain rfl : amounts = [] := by simpa [activeTerms, pure, Except.pure, eq_comm] using h
    exact ⟨0, 0, by simp [collapseFrom], by simp [activeTerms], fun _ => rfl⟩
  | cons term terms ih =>
    have hpercents := fun other hother => hpercent other (List.mem_cons_of_mem term hother)
    by_cases hdeleted : term.isDeleted = some true
    · have hskip : activeTerms (term :: terms) = activeTerms terms := by
        simp [activeTerms, hdeleted]
      rw [hskip] at h ⊢
      obtain ⟨milli, constant, hrun, hsum, hnone⟩ := ih hpercents h
      refine ⟨milli, constant, fun residual total => ?_, hsum, hnone⟩
      simp only [collapseFrom, if_pos hdeleted, hrun]
    · have hkeep : activeTerms (term :: terms) = term.toCostModelTerm :: activeTerms terms := by
        simp [activeTerms, hdeleted]
      rw [hkeep, List.mapM_cons] at h
      simp only [bind_eq_ok, pure, Except.pure, Except.ok.injEq] at h
      obtain ⟨amount, hamount, rest, hrest, rfl⟩ := h
      obtain ⟨milli, constant, hstep, hround, hzero⟩ :=
        collapseFrom_term hprice hdeleted (hpercent term List.mem_cons_self) hamount
      obtain ⟨milli', constant', hrun, hsum, hnone⟩ := ih hpercents hrest
      refine ⟨milli + milli', constant + constant', fun residual total => ?_, ?_, fun hk => ?_⟩
      · rw [hstep, hrun, sub_sub, add_assoc]
      · have hsplit : (((amount :: rest).sum : ℤ) : ℚ) -
            ((price * (milli + milli') : ℤ) / (100000 : ℤ) + (constant + constant' : ℤ)) =
            (amount - ((price * milli : ℤ) / (100000 : ℤ) + constant)) +
              (rest.sum - ((price * milli' : ℤ) / (100000 : ℤ) + constant')) := by
          rw [List.sum_cons]
          push_cast
          ring
        rw [hsplit, hkeep, List.map_cons, List.sum_cons]
        refine (abs_add_le _ _).trans ?_
        push_cast at hround hsum ⊢
        linarith
      · rw [hkeep, List.map_cons, List.sum_cons, Nat.add_eq_zero_iff] at hk
        rw [hzero hk.1, hnone hk.2, add_zero]

theorem calculateProductionBudget_ok {amounts : List ℤ} {budget : ℤ} (hprice : |price| < 10 ^ 44)
    (h : calculateProductionBudget (some price) amounts = .ok budget) :
    budget = min (price - amounts.sum)
      (roundHalfEven ((price * 25000 : ℤ) / (100000 : ℤ))) := by
  have hcap : PRODUCTION_BUDGET_CAP_PERCENT = ((25000 : ℤ) : ℚ) / 1000 := by
    norm_num [PRODUCTION_BUDGET_CAP_PERCENT]
  have hdigits : |price * 25000| < 10 ^ contextPrec := by
    rw [abs_mul, contextPrec]
    norm_num
    omega
  simp only [calculateProductionBudget, requirePrice, requireMoney, hcap,
    quantize_percentage hdigits, bind_eq_ok, arithmetic, pure, Except.pure, Except.ok.injEq,
    exists_eq_left'] at h
  obtain ⟨capMinor, hquantized, rfl⟩ := h
  rw [quantize_zero_ok hquantized]

end Error

section Agreement

/-- How many percentage terms the committed evaluation rounds. -/
def percentageTermCount (terms : List CostModelTermInput) : ℕ :=
  (activeTerms terms).countP fun term => term.calculationType = .percentageOfExpectedSalePrice

theorem sum_roundings (terms : List CostModelTerm) : (terms.map roundings).sum =
    terms.countP fun term => term.calculationType = .percentageOfExpectedSalePrice := by
  induction terms with
  | nil => rfl
  | cons term terms ih =>
    rw [List.map_cons, List.sum_cons, ih, List.countP_cons, roundings]
    simp only [decide_eq_true_eq]
    omega

/-- The budget on the slider and the committed budget differ by half a unit for each rounded
term and one more, and not at all without a percentage. -/
theorem collapsed_budget_error (terms : List CostModelTermInput) (price : ℤ)
    (purchaseCostMinor : Option ℤ) (amounts : List ℤ) (budget rate : ℤ)
    (hprice : |price| < 10 ^ 44)
    (hpercent : ∀ term ∈ terms, ∀ percent ∈ term.percentValue, IsPercentColumn percent)
    (hamounts : calculateTermAmounts (activeTerms terms) (some price) purchaseCostMinor =
      .ok amounts)
    (hbudget : calculateProductionBudget (some price) amounts = .ok budget) :
    ∃ residual constant collapsed,
      collapseTerms terms purchaseCostMinor = .ok (some (residual, constant)) ∧
      budgetMinor price ⟨residual, constant, rate, 25000⟩ = .ok collapsed ∧
      2 * |collapsed - budget| ≤ percentageTermCount terms + 1 ∧
      (percentageTermCount terms = 0 → collapsed = budget) := by
  simp only [calculateTermAmounts, bind_eq_ok, pure, Except.pure, Except.ok.injEq] at hamounts
  obtain ⟨sums, hmap, -, -, rfl⟩ := hamounts
  obtain ⟨milli, constant, hrun, hsum, hnone⟩ := collapseFrom_terms hprice hpercent hmap
  rw [sum_roundings] at hnone
  have hcount : (((activeTerms terms).map roundings).sum : ℚ) = percentageTermCount terms := by
    rw [sum_roundings]
    rfl
  rw [hcount] at hsum
  obtain rfl := calculateProductionBudget_ok hprice hbudget
  have hexact : ((price * (100000 - milli) : ℤ) : ℚ) / (100000 : ℤ) =
      price - (price * milli : ℤ) / (100000 : ℤ) := by
    push_cast
    ring
  refine ⟨100000 - milli, 0 + constant, _, hrun 100000 0, budgetMinor_eq price, ?_, fun hk => ?_⟩
  · have hcollapsed := Decimal.abs_roundHalfEven_sub_le
      ((price * (100000 - milli) : ℤ) / (100000 : ℤ))
    have herror : 2 * |roundHalfEven ((price * (100000 - milli) : ℤ) / (100000 : ℤ)) -
        (0 + constant) - (price - sums.sum)| ≤ percentageTermCount terms + 1 := by
      have hq : 2 * |((roundHalfEven ((price * (100000 - milli) : ℤ) / (100000 : ℤ)) : ℤ) : ℚ) -
          (0 + constant) - (price - sums.sum)| ≤ percentageTermCount terms + 1 := by
        rw [hexact] at hcollapsed ⊢
        rw [abs_le] at hcollapsed hsum
        rw [← le_div_iff₀' (by norm_num), abs_le]
        unfold roundHalfEven
        constructor <;> linarith [hcollapsed.1, hcollapsed.2, hsum.1, hsum.2]
      exact_mod_cast hq
    -- both budgets are cut by the same cap
    have hmin := abs_min_sub_min_le_max
      (roundHalfEven ((price * (100000 - milli) : ℤ) / (100000 : ℤ)) - (0 + constant))
      (roundHalfEven ((price * 25000 : ℤ) / (100000 : ℤ))) (price - sums.sum)
      (roundHalfEven ((price * 25000 : ℤ) / (100000 : ℤ)))
    rw [sub_self, abs_zero, max_eq_left (abs_nonneg _)] at hmin
    exact (mul_le_mul_of_nonneg_left hmin (by decide)).trans herror
  · obtain rfl := hnone hk
    have hprice' : roundHalfEven ((price * (100000 - 0) : ℤ) / (100000 : ℤ)) = price := by
      rw [hexact]
      simp [roundHalfEven]
    have hsum' : sums.sum = 0 + constant := by
      rw [hk, mul_zero] at hsum
      have : (sums.sum : ℚ) - constant = 0 := by simpa using hsum
      exact_mod_cast (by linarith : (sums.sum : ℚ) = 0 + constant)
    simp only [scenarioBudget, hprice', hsum']

/-- Two percentages and a fixed amount, one of the percentages deleted since. -/
theorem collapsed_budget_error_three :
    let terms : List CostModelTermInput := [
      ⟨⟨"Fee", .percentageOfExpectedSalePrice, some (22125 / 1000), none⟩, some false⟩,
      ⟨⟨"Rent", .fixedAmount, none, some 150000⟩, some false⟩,
      ⟨⟨"Old fee", .percentageOfExpectedSalePrice, some (5000 / 1000), none⟩, some true⟩]
    ∃ residual constant collapsed,
      collapseTerms terms none = .ok (some (residual, constant)) ∧
      budgetMinor 282901 ⟨residual, constant, 13000000, 25000⟩ = .ok collapsed ∧
      2 * |collapsed - 70309| ≤ 2 := by
  intro terms
  obtain ⟨residual, constant, collapsed, hcollapse, hbudget, herror, -⟩ :=
    collapsed_budget_error terms 282901 none [62592, 150000] 70309 13000000 (by decide)
      (by
        simp only [terms, List.mem_cons, List.not_mem_nil, or_false, Option.mem_def]
        rintro term (rfl | rfl | rfl) percent hpercent
        · exact ⟨22125, by simpa [eq_comm] using hpercent, by decide⟩
        · simp at hpercent
        · exact ⟨5000, by simpa [eq_comm] using hpercent, by decide⟩)
      (by decide +kernel) (by decide +kernel)
  exact ⟨residual, constant, collapsed, hcollapse, hbudget, herror⟩

end Agreement

end BeyoManager.ItemEconomics
