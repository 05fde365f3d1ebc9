import BeyoManager.ItemEconomics.Calculator

/-! # A stored evaluation computed again

What the forward functions stored is derived again without a difference, and a field that
differs is named. Every exception on the way is of a class that `rederive` catches.
-/

namespace BeyoManager.ItemEconomics

open Transition

section Caught

variable {α β : Type}

/-- A computation whose exceptions are all of the classes that `rederive` catches. -/
def Caught (x : Except CalculatorError α) : Prop := ∀ e, x = .error e → e.isCaught

theorem caught_ok (a : α) : Caught (.ok a : Except CalculatorError α) := nofun

theorem caught_pure (a : α) : Caught (pure a : Except CalculatorError α) := nofun

theorem caught_error {e : CalculatorError} (h : e.isCaught) :
    Caught (.error e : Except CalculatorError α) := by
  rintro _ ⟨⟩
  exact h

theorem Caught.bind {x : Except CalculatorError α} {f : α → Except CalculatorError β}
    (hx : Caught x) (hf : ∀ a, x = .ok a → Caught (f a)) : Caught (x >>= f) := by
  cases x with
  | error e => exact caught_error (hx e rfl)
  | ok a => exact hf a rfl

theorem caught_throwIf {p : Prop} [Decidable p] {e : CalculatorError} (h : p → e.isCaught) :
    Caught (throwIf p e) := by
  unfold throwIf
  split
  · rename_i hp
    exact caught_error (h hp)
  · exact caught_ok ()

theorem caught_getOr {e : CalculatorError} {x : Option α} (h : x = none → e.isCaught) :
    Caught (getOr e x) := by
  cases x with
  | none => exact caught_error (h rfl)
  | some a => exact caught_ok a

theorem caught_arithmetic (x : Except Decimal.Signal α) : Caught (arithmetic x) := by
  cases x with
  | error signal => exact caught_error rfl
  | ok a => exact caught_ok a

theorem requireMoney_some (money : ℤ) (field : String) (identity : Option String) :
    requireMoney (some money) field identity = .ok money := rfl

theorem requireRate_some (rate : ℚ) (field : String) : requireRate (some rate) field = .ok rate :=
  rfl

theorem caught_requireMoney (value : Option ℤ) (field : String) (identity : Option String) :
    Caught (requireMoney value field identity) := by
  cases value with
  | some money => exact caught_ok money
  | none => cases identity <;> exact caught_error rfl

theorem caught_requireRate (value : Option ℚ) (field : String) :
    Caught (requireRate value field) := caught_getOr fun _ => rfl

theorem caught_mapM {l : List α} {f : α → Except CalculatorError β} (h : ∀ a ∈ l, Caught (f a)) :
    Caught (l.mapM f) := by
  induction l with
  | nil => exact caught_pure []
  | cons a l ih =>
    rw [List.mapM_cons]
    refine (h a List.mem_cons_self).bind fun b _ => ?_
    exact (ih fun x hx => h x (List.mem_cons_of_mem a hx)).bind fun _ _ => caught_pure _

theorem caught_termShape (calculationType : CostModelTermCalculationType)
    (percentValue : Option ℚ) (fixedAmountMinor : Option ℤ) :
    Caught (termShape calculationType percentValue fixedAmountMinor) :=
  (caught_throwIf fun _ => rfl).bind fun _ _ =>
    (caught_throwIf fun _ => rfl).bind fun _ _ => caught_throwIf fun _ => rfl

theorem caught_calculatePercentageTermAmount (price : Option ℤ) (percent : Option ℚ) :
    Caught (calculatePercentageTermAmount price percent) :=
  (caught_requireMoney _ _ _).bind fun _ _ => (caught_requireRate _ _).bind fun _ _ =>
    (caught_arithmetic _).bind fun _ _ => (caught_arithmetic _).bind fun _ _ => caught_pure _

theorem caught_calculateTermAmount (calculationType : CostModelTermCalculationType)
    (price : Option ℤ) (percent : Option ℚ) (fixed purchaseCost : Option ℤ) :
    Caught (calculateTermAmount calculationType price percent fixed purchaseCost) := by
  refine (caught_requireMoney _ _ _).bind fun p _ => ?_
  refine (caught_termShape _ _ _).bind fun u hshape => ?_
  simp only [termShape, bind_eq_ok, throwIf_eq_ok, not_not] at hshape
  obtain ⟨-, hpresence, -⟩ := hshape
  cases calculationType with
  | percentageOfExpectedSalePrice =>
    refine (caught_throwIf fun hnone => ?_).bind fun _ _ =>
      caught_calculatePercentageTermAmount _ _
    simp [presenceValid, hnone] at hpresence
  | fixedAmount =>
    refine caught_getOr fun hnone => ?_
    simp [presenceValid, hnone] at hpresence
  | itemPurchaseCost => exact caught_requireMoney _ _ _

theorem caught_calculateTermAmounts (terms : List CostModelTerm) (price purchaseCost : Option ℤ) :
    Caught (calculateTermAmounts terms price purchaseCost) :=
  (caught_mapM fun _ _ => caught_calculateTermAmount _ _ _ _ _).bind fun _ _ =>
    (caught_throwIf fun _ => rfl).bind fun _ _ => caught_pure _

theorem caught_calculateProductionBudget (price : Option ℤ) (amounts : List ℤ) :
    Caught (calculateProductionBudget price amounts) :=
  (caught_requireMoney _ _ _).bind fun _ _ => (caught_arithmetic _).bind fun _ _ =>
    (caught_arithmetic _).bind fun _ _ => caught_pure _

theorem caught_calculateCostPerWorkerMinute (cost : Option ℤ) (hours utilization : Option ℚ) :
    Caught (calculateCostPerWorkerMinute cost hours utilization) :=
  (caught_requireMoney _ _ _).bind fun _ _ => (caught_requireRate _ _).bind fun _ _ =>
    (caught_requireRate _ _).bind fun _ _ => (caught_arithmetic _).bind fun _ _ =>
      (caught_arithmetic _).bind fun _ _ => (caught_arithmetic _).bind fun _ _ =>
        (caught_throwIf fun _ => rfl).bind fun _ _ => caught_pure _

theorem caught_calculateAllowedWorkerMinutes (budget : Option ℤ) (rate : Option ℚ) :
    Caught (calculateAllowedWorkerMinutes budget rate) :=
  (caught_requireMoney _ _ _).bind fun _ _ => (caught_requireRate _ _).bind fun _ _ =>
    (caught_throwIf fun _ => rfl).bind fun _ _ => (caught_arithmetic _).bind fun _ _ =>
      caught_arithmetic _

end Caught

section Reports

variable {α : Type} {block : Except CalculatorError α} {report : CalculatorError → Rederivation}
  {rest : α → Except CalculatorError Rederivation} {mismatches : List Mismatch}

theorem attempt_of_ok {a : α} (h : block = .ok a) : attempt block report rest = rest a := by
  rw [h, attempt]

theorem attempt_cases (P : Except CalculatorError Rederivation → Prop) (hblock : Caught block)
    (hreport : ∀ e, P (.ok (report e))) (hrest : ∀ a, P (rest a)) :
    P (attempt block report rest) := by
  unfold attempt
  split
  · exact hrest _
  · rename_i e
    rw [if_pos (hblock e rfl)]
    exact hreport e

def Returns (x : Except CalculatorError Rederivation) : Prop := ∃ r, x = .ok r

/-- The derivation ends in a report that holds every entry of a list. -/
def Keeps (mismatches : List Mismatch) (x : Except CalculatorError Rederivation) : Prop :=
  ∃ mismatches', x = .ok (.mismatch mismatches') ∧ mismatches ⊆ mismatches'

/-- The derivation ends in a report that names a field. -/
def Reports (x : Except CalculatorError Rederivation) (field : String) : Prop :=
  ∃ mismatches, x = .ok (.mismatch mismatches) ∧ ∃ m ∈ mismatches, m.field = field

theorem Keeps.reports {x : Except CalculatorError Rederivation} (h : Keeps mismatches x)
    {m : Mismatch} (hm : m ∈ mismatches) : Reports x m.field := by
  obtain ⟨ms, hx, hsub⟩ := h
  exact ⟨ms, hx, m, hsub hm, rfl⟩

theorem keeps_marker (field : String) (stored : Option Figure) (e : CalculatorError) :
    Keeps mismatches (.ok (marker mismatches field stored e)) :=
  ⟨_, rfl, List.subset_append_left _ _⟩

theorem Keeps.mono {mismatches' : List Mismatch} {x : Except CalculatorError Rederivation}
    (h : Keeps mismatches' x) (hsub : mismatches ⊆ mismatches') : Keeps mismatches x := by
  obtain ⟨ms, hx, hms⟩ := h
  exact ⟨ms, hx, List.Subset.trans hsub hms⟩

theorem subset_reportIf {p : Prop} [Decidable p] {field : String} {a b : Figure} :
    mismatches ⊆ reportIf p mismatches field a b := by
  unfold reportIf
  split
  · exact List.subset_append_left _ _
  · exact List.Subset.refl _

theorem reportIf_ne_nil {p : Prop} [Decidable p] {field : String} {a b : Figure}
    (h : mismatches ≠ []) : reportIf p mismatches field a b ≠ [] := by
  obtain ⟨m, hm⟩ := List.exists_mem_of_ne_nil _ h
  exact List.ne_nil_of_mem (subset_reportIf hm)

theorem mem_reportIf {p : Prop} [Decidable p] {field : String} {a b : Figure} (hp : p) :
    ⟨field, some a, some b, none⟩ ∈ reportIf p mismatches field a b := by
  rw [reportIf, if_pos hp]
  exact List.mem_append_right _ List.mem_cons_self

end Reports

section Stages

variable {evaluation : EvaluationSnapshot} {rows : List TermSnapshot} {rate storedRate : ℚ}
  {price budget : ℤ} {amounts : List ℤ} {mismatches : List Mismatch}

theorem compareAllowed_returns :
    Returns (compareAllowed evaluation rate storedRate budget mismatches) := by
  refine attempt_cases Returns (caught_requireRate _ _) (fun e => ⟨_, rfl⟩) fun storedAllowed => ?_
  exact attempt_cases Returns (caught_calculateAllowedWorkerMinutes _ _) (fun e => ⟨_, rfl⟩)
    fun allowed => ⟨_, rfl⟩

theorem compareAllowed_keeps (h : mismatches ≠ []) :
    Keeps mismatches (compareAllowed evaluation rate storedRate budget mismatches) := by
  refine attempt_cases (Keeps mismatches) (caught_requireRate _ _) (fun e => ?_)
    fun storedAllowed => ?_
  · split <;> exact keeps_marker _ _ e
  · refine attempt_cases (Keeps mismatches) (caught_calculateAllowedWorkerMinutes _ _)
      (fun e => keeps_marker _ _ e) fun allowed => ?_
    exact ⟨_, congrArg Except.ok (if_pos (reportIf_ne_nil h)), subset_reportIf⟩

theorem caught_budgetBlock : Caught (do
    let budget ← calculateProductionBudget (some price) amounts
    let storedBudget ← requireMoney evaluation.productionBudgetMinor "production_budget_minor" none
    pure (budget, storedBudget)) :=
  (caught_calculateProductionBudget _ _).bind fun _ _ =>
    (caught_requireMoney _ _ _).bind fun _ _ => caught_pure _

theorem compareBudget_returns :
    Returns (compareBudget evaluation rate storedRate price amounts mismatches) :=
  attempt_cases Returns caught_budgetBlock (fun _ => ⟨_, rfl⟩) fun _ => compareAllowed_returns

theorem compareBudget_keeps (h : mismatches ≠ []) :
    Keeps mismatches (compareBudget evaluation rate storedRate price amounts mismatches) := by
  refine attempt_cases (Keeps mismatches) caught_budgetBlock (fun e => keeps_marker _ _ e) ?_
  rintro ⟨budget, storedBudget⟩
  exact (compareAllowed_keeps (reportIf_ne_nil h)).mono subset_reportIf

variable {rest : List Mismatch → Except CalculatorError Rederivation}
  {entries : List (TermSnapshot × ℤ)}

theorem compareTermAmounts_returns (hrest : ∀ ms, Returns (rest ms)) :
    Returns (compareTermAmounts rest entries mismatches) := by
  induction entries generalizing mismatches with
  | nil => exact hrest mismatches
  | cons entry entries ih =>
    exact attempt_cases Returns (caught_requireMoney _ _ _) (fun _ => ⟨_, rfl⟩) fun _ => ih

theorem compareTermAmounts_keeps (hrest : ∀ ms, ms ≠ [] → Keeps ms (rest ms))
    (h : mismatches ≠ []) : Keeps mismatches (compareTermAmounts rest entries mismatches) := by
  induction entries generalizing mismatches with
  | nil => exact hrest mismatches h
  | cons entry entries ih =>
    refine attempt_cases (Keeps mismatches) (caught_requireMoney _ _ _)
      (fun e => keeps_marker _ _ e) fun storedAmount => ?_
    exact (ih (reportIf_ne_nil h)).mono subset_reportIf

theorem compareTermAmounts_eq (h : ∀ entry ∈ entries, entry.1.amountMinor = some entry.2) :
    compareTermAmounts rest entries mismatches = rest mismatches := by
  induction entries with
  | nil => rfl
  | cons entry entries ih =>
    obtain ⟨row, amount⟩ := entry
    have hrow : row.amountMinor = some amount := h _ List.mem_cons_self
    rw [compareTermAmounts, hrow, attempt_of_ok (requireMoney_some _ _ _), reportIf,
      if_neg (not_not.mpr rfl)]
    exact ih fun e he => h e (List.mem_cons_of_mem _ he)

theorem compareTermAmounts_reaches (rest : List Mismatch → Except CalculatorError Rederivation)
    (mismatches : List Mismatch) (hstored : ∀ entry ∈ entries, entry.1.amountMinor.isSome) :
    ∃ ms, compareTermAmounts rest entries mismatches = rest ms := by
  induction entries generalizing mismatches with
  | nil => exact ⟨mismatches, rfl⟩
  | cons entry entries ih =>
    obtain ⟨row, amount⟩ := entry
    obtain ⟨stored, hrow⟩ := Option.isSome_iff_exists.mp (hstored _ List.mem_cons_self)
    rw [compareTermAmounts, hrow, attempt_of_ok (requireMoney_some _ _ _)]
    exact ih _ fun e he => hstored e (List.mem_cons_of_mem _ he)

theorem compareTermAmounts_reports (hrest : ∀ ms, ms ≠ [] → Keeps ms (rest ms))
    (hstored : ∀ entry ∈ entries, entry.1.amountMinor.isSome) {entry : TermSnapshot × ℤ}
    (hentry : entry ∈ entries) (hne : entry.1.amountMinor ≠ some entry.2) :
    Reports (compareTermAmounts rest entries mismatches) (termField entry.1) := by
  induction entries generalizing mismatches with
  | nil => simp at hentry
  | cons e entries ih =>
    obtain ⟨row, amount⟩ := e
    obtain ⟨stored, hrow⟩ := Option.isSome_iff_exists.mp (hstored _ List.mem_cons_self)
    rw [compareTermAmounts, hrow, attempt_of_ok (requireMoney_some _ _ _)]
    rcases List.mem_cons.mp hentry with rfl | hentry
    · have hdiffers : amount ≠ stored := fun h => hne (h ▸ hrow)
      have hm : (⟨termField row, some (.integer amount), some (.integer stored), none⟩ : Mismatch) ∈
          reportIf (amount ≠ stored) mismatches (termField row) (.integer amount)
            (.integer stored) := mem_reportIf hdiffers
      exact (compareTermAmounts_keeps hrest (List.ne_nil_of_mem hm)).reports hm
    · exact ih (fun e he => hstored e (List.mem_cons_of_mem _ he)) hentry

end Stages

section Rederive

variable {evaluation : EvaluationSnapshot} {rows : List TermSnapshot} {rate storedRate : ℚ}
  {price budget : ℤ} {amounts : List ℤ} {mismatches : List Mismatch}

/-- What `rederive` does with the rate in hand. -/
def rederiveFrom (evaluation : EvaluationSnapshot) (rows : List TermSnapshot)
    (rate storedRate : ℚ) (mismatches : List Mismatch) : Except CalculatorError Rederivation :=
  attempt (requirePrice evaluation.expectedSalePriceMinor)
    (marker mismatches "evaluation_snapshot" none) fun expectedPrice =>
  attempt (calculateTermAmounts (rows.map TermSnapshot.toCostModelTerm) (some expectedPrice)
      evaluation.purchaseCostMinor)
    (marker mismatches "term_snapshot" none) fun amounts =>
  compareTermAmounts (compareBudget evaluation rate storedRate expectedPrice amounts)
    (rows.zip amounts) mismatches

theorem rederiveFrom_returns : Returns (rederiveFrom evaluation rows rate storedRate mismatches) :=
  attempt_cases Returns (caught_requireMoney _ _ _) (fun _ => ⟨_, rfl⟩) fun _ =>
    attempt_cases Returns (caught_calculateTermAmounts _ _ _) (fun _ => ⟨_, rfl⟩) fun _ =>
      compareTermAmounts_returns fun _ => compareBudget_returns

theorem rederiveFrom_keeps (h : mismatches ≠ []) :
    Keeps mismatches (rederiveFrom evaluation rows rate storedRate mismatches) :=
  attempt_cases (Keeps mismatches) (caught_requireMoney _ _ _) (fun e => keeps_marker _ _ e)
    fun _ => attempt_cases (Keeps mismatches) (caught_calculateTermAmounts _ _ _)
      (fun e => keeps_marker _ _ e) fun _ =>
        compareTermAmounts_keeps (fun _ hms => compareBudget_keeps hms) h

theorem caught_rateBlock : Caught (do
    let rate ← calculateCostPerWorkerMinute evaluation.fixedMonthlyCostMinorSnapshot
      evaluation.monthlyPaidHoursSnapshot evaluation.planningUtilizationPercentSnapshot
    let storedRate ← requireRate evaluation.costPerWorkerMinuteMinorSnapshot
      "cost_per_worker_minute_minor_snapshot"
    pure (rate, storedRate)) :=
  (caught_calculateCostPerWorkerMinute _ _ _).bind fun _ _ =>
    (caught_requireRate _ _).bind fun _ _ => caught_pure _

theorem rederive_returns (evaluation : EvaluationSnapshot) (rows : List TermSnapshot) :
    Returns (rederive evaluation rows) := by
  refine attempt_cases Returns (caught_getOr fun _ => rfl) (fun _ => ⟨_, rfl⟩) fun version => ?_
  split
  · exact ⟨_, rfl⟩
  · exact attempt_cases Returns caught_rateBlock (fun _ => ⟨_, rfl⟩) fun _ => rederiveFrom_returns

/-- The columns of a stored evaluation that are never null. -/
structure IsStored (evaluation : EvaluationSnapshot) (rows : List TermSnapshot) : Prop where
  price : evaluation.expectedSalePriceMinor.isSome
  hours : evaluation.monthlyPaidHoursSnapshot.isSome
  utilization : evaluation.planningUtilizationPercentSnapshot.isSome
  fixedCost : evaluation.fixedMonthlyCostMinorSnapshot.isSome
  rate : evaluation.costPerWorkerMinuteMinorSnapshot.isSome
  budget : evaluation.productionBudgetMinor.isSome
  allowed : evaluation.allowedWorkerMinutes.isSome
  version : evaluation.calculationVersion.isSome
  amounts : ∀ row ∈ rows, row.amountMinor.isSome

/-- What the forward functions give for the inputs of a stored evaluation. -/
structure Recomputed (evaluation : EvaluationSnapshot) (rows : List TermSnapshot) (rate : ℚ)
    (amounts : List ℤ) (budget : ℤ) (allowed : ℚ) : Prop where
  rate_eq : calculateCostPerWorkerMinute evaluation.fixedMonthlyCostMinorSnapshot
    evaluation.monthlyPaidHoursSnapshot evaluation.planningUtilizationPercentSnapshot = .ok rate
  amounts_eq : calculateTermAmounts (rows.map TermSnapshot.toCostModelTerm)
    evaluation.expectedSalePriceMinor evaluation.purchaseCostMinor = .ok amounts
  budget_eq : calculateProductionBudget evaluation.expectedSalePriceMinor amounts = .ok budget
  allowed_eq : calculateAllowedWorkerMinutes (some budget) (some rate) = .ok allowed

variable {allowed : ℚ}

theorem calculateTermAmounts_length {terms : List CostModelTerm} {p c : Option ℤ}
    (h : calculateTermAmounts terms p c = .ok amounts) : amounts.length = terms.length := by
  simp only [calculateTermAmounts, bind_eq_ok, throwIf_eq_ok, pure, Except.pure,
    Except.ok.injEq] at h
  obtain ⟨_, hmap, -, -, rfl⟩ := h
  exact (mapM_forall₂ hmap).length_eq.symm

/-- The snapshot that a successful evaluation stores is complete. -/
theorem evaluate_eq_ok {inputs : EvaluationInputs}
    (h : evaluate inputs = .ok (evaluation, rows)) : ∃ rate amounts budget allowed,
      Recomputed evaluation rows rate amounts budget allowed ∧
      evaluation.calculationVersion = some CALCULATION_VERSION ∧
      evaluation.expectedSalePriceMinor = some inputs.expectedPrice ∧
      evaluation.costPerWorkerMinuteMinorSnapshot = some rate ∧
      evaluation.productionBudgetMinor = some budget ∧
      evaluation.allowedWorkerMinutes = some allowed ∧
      ∀ entry ∈ rows.zip amounts, entry.1.amountMinor = some entry.2 := by
  simp only [evaluate, bind_eq_ok, pure, Except.pure, Except.ok.injEq, Prod.mk.injEq] at h
  obtain ⟨amounts, hamounts, rate, hrate, budget, hbudget, allowed, hallowed, rfl, rfl⟩ := h
  have hlen := calculateTermAmounts_length hamounts
  have hterms : ((inputs.terms.zip amounts).map fun entry =>
      (⟨entry.1, some entry.2⟩ : TermSnapshot)).map TermSnapshot.toCostModelTerm =
        inputs.terms := by
    rw [List.map_map]
    exact List.map_fst_zip hlen.ge
  refine ⟨rate, amounts, budget, allowed, ⟨hrate, by rwa [hterms], hbudget, hallowed⟩, rfl, rfl,
    rfl, rfl, rfl, fun entry hentry => ?_⟩
  obtain ⟨i, hi, rfl⟩ := List.getElem_of_mem hentry
  simp

theorem rederive_of_rate (hversion : evaluation.calculationVersion = some CALCULATION_VERSION)
    (hrate : calculateCostPerWorkerMinute evaluation.fixedMonthlyCostMinorSnapshot
      evaluation.monthlyPaidHoursSnapshot evaluation.planningUtilizationPercentSnapshot = .ok rate)
    (hstored : evaluation.costPerWorkerMinuteMinorSnapshot = some storedRate) :
    rederive evaluation rows = rederiveFrom evaluation rows rate storedRate
      (reportIf (rate ≠ storedRate) [] "cost_per_worker_minute_minor_snapshot" (.decimal rate)
        (.decimal storedRate)) := by
  rw [rederive, hversion, attempt_of_ok (getOr_eq_ok.mpr rfl), if_neg (not_not.mpr rfl), hrate,
    hstored]
  rfl

theorem rederiveFrom_of_amounts (hprice : evaluation.expectedSalePriceMinor = some price)
    (hamounts : calculateTermAmounts (rows.map TermSnapshot.toCostModelTerm) (some price)
      evaluation.purchaseCostMinor = .ok amounts) :
    rederiveFrom evaluation rows rate storedRate mismatches =
      compareTermAmounts (compareBudget evaluation rate storedRate price amounts)
        (rows.zip amounts) mismatches := by
  rw [rederiveFrom, hprice, requirePrice, attempt_of_ok (requireMoney_some _ _ _), hamounts,
    attempt_of_ok rfl]

theorem compareBudget_of_budget {storedBudget : ℤ}
    (hbudget : calculateProductionBudget (some price) amounts = .ok budget)
    (hstored : evaluation.productionBudgetMinor = some storedBudget) :
    compareBudget evaluation rate storedRate price amounts mismatches =
      compareAllowed evaluation rate storedRate budget
        (reportIf (budget ≠ storedBudget) mismatches "production_budget_minor" (.integer budget)
          (.integer storedBudget)) := by
  rw [compareBudget, hbudget, hstored]
  rfl

theorem rederive_values (hr : Recomputed evaluation rows rate amounts budget allowed)
    (hversion : evaluation.calculationVersion = some CALCULATION_VERSION)
    (hprice : evaluation.expectedSalePriceMinor = some price)
    (hrate : evaluation.costPerWorkerMinuteMinorSnapshot = some rate)
    (hamounts : ∀ entry ∈ rows.zip amounts, entry.1.amountMinor = some entry.2)
    (hbudget : evaluation.productionBudgetMinor = some budget)
    (hallowed : evaluation.allowedWorkerMinutes = some allowed) :
    rederive evaluation rows = .ok (.values rate budget allowed) := by
  rw [rederive_of_rate hversion hr.rate_eq hrate, reportIf, if_neg (not_not.mpr rfl),
    rederiveFrom_of_amounts hprice (hprice ▸ hr.amounts_eq), compareTermAmounts_eq hamounts,
    compareBudget_of_budget (hprice ▸ hr.budget_eq) hbudget, reportIf, if_neg (not_not.mpr rfl),
    compareAllowed, hallowed, attempt_of_ok (requireRate_some _ _), hr.allowed_eq,
    attempt_of_ok rfl]
  simp [reportIf]

theorem rederive_reports_rate (hversion : evaluation.calculationVersion = some CALCULATION_VERSION)
    (hr : Recomputed evaluation rows rate amounts budget allowed) (hs : IsStored evaluation rows)
    (hne : evaluation.costPerWorkerMinuteMinorSnapshot ≠ some rate) :
    Reports (rederive evaluation rows) "cost_per_worker_minute_minor_snapshot" := by
  obtain ⟨storedRate, hstored⟩ := Option.isSome_iff_exists.mp hs.rate
  rw [rederive_of_rate hversion hr.rate_eq hstored]
  have hdiffers : rate ≠ storedRate := fun h => hne (h ▸ hstored)
  have hm : (⟨"cost_per_worker_minute_minor_snapshot", some (.decimal rate),
      some (.decimal storedRate), none⟩ : Mismatch) ∈ reportIf (rate ≠ storedRate) []
        "cost_per_worker_minute_minor_snapshot" (.decimal rate) (.decimal storedRate) :=
    mem_reportIf hdiffers
  exact (rederiveFrom_keeps (List.ne_nil_of_mem hm)).reports hm

theorem rederive_reports_amount
    (hversion : evaluation.calculationVersion = some CALCULATION_VERSION)
    (hr : Recomputed evaluation rows rate amounts budget allowed) (hs : IsStored evaluation rows)
    {entry : TermSnapshot × ℤ} (hentry : entry ∈ rows.zip amounts)
    (hne : entry.1.amountMinor ≠ some entry.2) :
    Reports (rederive evaluation rows) (termField entry.1) := by
  obtain ⟨storedRate, hstored⟩ := Option.isSome_iff_exists.mp hs.rate
  obtain ⟨price, hprice⟩ := Option.isSome_iff_exists.mp hs.price
  rw [rederive_of_rate hversion hr.rate_eq hstored,
    rederiveFrom_of_amounts hprice (hprice ▸ hr.amounts_eq)]
  exact compareTermAmounts_reports (fun _ hms => compareBudget_keeps hms)
    (fun e he => hs.amounts e.1 (List.of_mem_zip he).1) hentry hne

theorem rederive_reaches (hversion : evaluation.calculationVersion = some CALCULATION_VERSION)
    (hr : Recomputed evaluation rows rate amounts budget allowed) (hs : IsStored evaluation rows)
    {storedBudget : ℤ} (hbudget : evaluation.productionBudgetMinor = some storedBudget)
    (hrate : evaluation.costPerWorkerMinuteMinorSnapshot = some storedRate) :
    ∃ ms, rederive evaluation rows = compareAllowed evaluation rate storedRate budget
      (reportIf (budget ≠ storedBudget) ms "production_budget_minor" (.integer budget)
        (.integer storedBudget)) := by
  obtain ⟨price, hprice⟩ := Option.isSome_iff_exists.mp hs.price
  obtain ⟨ms, hms⟩ := compareTermAmounts_reaches
    (compareBudget evaluation rate storedRate price amounts)
    (reportIf (rate ≠ storedRate) [] "cost_per_worker_minute_minor_snapshot" (.decimal rate)
      (.decimal storedRate))
    (fun e (he : e ∈ rows.zip amounts) => hs.amounts e.1 (List.of_mem_zip he).1)
  refine ⟨ms, ?_⟩
  rw [rederive_of_rate hversion hr.rate_eq hrate,
    rederiveFrom_of_amounts hprice (hprice ▸ hr.amounts_eq), hms,
    compareBudget_of_budget (hprice ▸ hr.budget_eq) hbudget]

theorem rederive_reports_budget
    (hversion : evaluation.calculationVersion = some CALCULATION_VERSION)
    (hr : Recomputed evaluation rows rate amounts budget allowed) (hs : IsStored evaluation rows)
    (hne : evaluation.productionBudgetMinor ≠ some budget) :
    Reports (rederive evaluation rows) "production_budget_minor" := by
  obtain ⟨storedBudget, hbudget⟩ := Option.isSome_iff_exists.mp hs.budget
  obtain ⟨storedRate, hrate⟩ := Option.isSome_iff_exists.mp hs.rate
  obtain ⟨ms, hms⟩ := rederive_reaches hversion hr hs hbudget hrate
  have hdiffers : budget ≠ storedBudget := fun h => hne (h ▸ hbudget)
  have hm : (⟨"production_budget_minor", some (.integer budget), some (.integer storedBudget),
      none⟩ : Mismatch) ∈ reportIf (budget ≠ storedBudget) ms "production_budget_minor"
        (.integer budget) (.integer storedBudget) := mem_reportIf hdiffers
  rw [hms]
  exact (compareAllowed_keeps (List.ne_nil_of_mem hm)).reports hm

/-- The allowance is reported when it differs, also when the stored rate gives none. -/
theorem rederive_reports_allowed
    (hversion : evaluation.calculationVersion = some CALCULATION_VERSION)
    (hr : Recomputed evaluation rows rate amounts budget allowed) (hs : IsStored evaluation rows)
    (hne : evaluation.allowedWorkerMinutes ≠ some allowed) :
    Reports (rederive evaluation rows) "allowed_worker_minutes" := by
  obtain ⟨storedBudget, hbudget⟩ := Option.isSome_iff_exists.mp hs.budget
  obtain ⟨storedRate, hrate⟩ := Option.isSome_iff_exists.mp hs.rate
  obtain ⟨storedAllowed, hallowed⟩ := Option.isSome_iff_exists.mp hs.allowed
  obtain ⟨ms, hms⟩ := rederive_reaches hversion hr hs hbudget hrate
  rw [hms, compareAllowed, hallowed, attempt_of_ok (requireRate_some _ _)]
  cases hcalc : calculateAllowedWorkerMinutes (some budget) (some storedRate) with
  | error e =>
    rw [attempt, if_pos (caught_calculateAllowedWorkerMinutes _ _ e hcalc)]
    exact ⟨_, rfl, _, List.mem_append_right _ List.mem_cons_self, rfl⟩
  | ok allowed' =>
    have hdiffers : allowed' ≠ storedAllowed ∨ rate ≠ storedRate := by
      by_contra hsame
      push Not at hsame
      obtain ⟨rfl, rfl⟩ := hsame
      rw [hr.allowed_eq] at hcalc
      exact hne (Except.ok.inj hcalc ▸ hallowed)
    have hmem : ∀ ms, (⟨"allowed_worker_minutes", some (.decimal allowed'),
        some (.decimal storedAllowed), none⟩ : Mismatch) ∈ reportIf (allowed' ≠ storedAllowed ∨
          rate ≠ storedRate) ms "allowed_worker_minutes" (.decimal allowed')
            (.decimal storedAllowed) := fun _ => mem_reportIf hdiffers
    exact ⟨_, congrArg Except.ok (if_pos (List.ne_nil_of_mem (hmem _))), _, hmem _, rfl⟩

/-- What the forward functions stored is derived again exactly, a stored value that differs
from the recomputed one is named, another version is skipped, and nothing is raised. -/
theorem rederive_exact :
    (∀ inputs evaluation rows, evaluate inputs = .ok (evaluation, rows) →
      ∃ rate budget allowed, evaluation.costPerWorkerMinuteMinorSnapshot = some rate ∧
        evaluation.productionBudgetMinor = some budget ∧
        evaluation.allowedWorkerMinutes = some allowed ∧
        rederive evaluation rows = .ok (.values rate budget allowed)) ∧
    (∀ evaluation rows rate amounts budget allowed, IsStored evaluation rows →
      evaluation.calculationVersion = some CALCULATION_VERSION →
      Recomputed evaluation rows rate amounts budget allowed →
        (evaluation.costPerWorkerMinuteMinorSnapshot ≠ some rate →
          Reports (rederive evaluation rows) "cost_per_worker_minute_minor_snapshot") ∧
        (∀ entry ∈ rows.zip amounts, entry.1.amountMinor ≠ some entry.2 →
          Reports (rederive evaluation rows) (termField entry.1)) ∧
        (evaluation.productionBudgetMinor ≠ some budget →
          Reports (rederive evaluation rows) "production_budget_minor") ∧
        (evaluation.allowedWorkerMinutes ≠ some allowed →
          Reports (rederive evaluation rows) "allowed_worker_minutes")) ∧
    (∀ evaluation rows version, evaluation.calculationVersion = some version →
      version ≠ CALCULATION_VERSION → rederive evaluation rows = .ok .skipped) ∧
    ∀ evaluation rows, ∃ r, rederive evaluation rows = .ok r := by
  refine ⟨fun inputs evaluation rows h => ?_, fun evaluation rows rate amounts budget allowed hs
    hversion hr => ?_, fun evaluation rows version hversion hne => ?_, rederive_returns⟩
  · obtain ⟨rate, amounts, budget, allowed, hr, hversion, hprice, hrate, hbudget, hallowed,
      hamounts⟩ := evaluate_eq_ok h
    exact ⟨rate, budget, allowed, hrate, hbudget, hallowed,
      rederive_values hr hversion hprice hrate hamounts hbudget hallowed⟩
  · exact ⟨rederive_reports_rate hversion hr hs,
      fun entry hentry => rederive_reports_amount hversion hr hs hentry,
      rederive_reports_budget hversion hr hs, rederive_reports_allowed hversion hr hs⟩
  · rw [rederive, hversion, attempt_of_ok (getOr_eq_ok.mpr rfl), if_pos hne]

/-- An evaluation of three terms, derived again as stored and with a budget one unit short. -/
theorem rederive_exact_three_terms :
    let inputs : EvaluationInputs := ⟨100000, some 20000, 1000000, 160, 80,
      [⟨"margin", .percentageOfExpectedSalePrice, some 30, none⟩,
       ⟨"overhead", .fixedAmount, none, some 5000⟩, ⟨"purchase", .itemPurchaseCost, none, none⟩]⟩
    let rows : List TermSnapshot :=
      [⟨⟨"margin", .percentageOfExpectedSalePrice, some 30, none⟩, some 30000⟩,
       ⟨⟨"overhead", .fixedAmount, none, some 5000⟩, some 5000⟩,
       ⟨⟨"purchase", .itemPurchaseCost, none, none⟩, some 20000⟩]
    let stored : EvaluationSnapshot := ⟨some 100000, some 20000, some 160, some 80, some 1000000,
      some (1302083 / 10000), some 25000, some 192, some 2⟩
    evaluate inputs = .ok (stored, rows) ∧
      (∃ rate budget allowed, rederive stored rows = .ok (.values rate budget allowed)) ∧
      Reports (rederive { stored with productionBudgetMinor := some 24999 } rows)
        "production_budget_minor" ∧
      rederive { stored with calculationVersion := some 1 } rows = .ok .skipped := by
  intro inputs rows stored
  obtain ⟨hvalues, hreports, hskips, -⟩ := rederive_exact
  have hevaluate : evaluate inputs = .ok (stored, rows) := by decide +kernel
  obtain ⟨rate, budget, allowed, -, -, -, h⟩ := hvalues inputs stored rows hevaluate
  refine ⟨hevaluate, ⟨rate, budget, allowed, h⟩, ?_, hskips _ _ 1 rfl (by decide)⟩
  refine (hreports { stored with productionBudgetMinor := some 24999 } rows (1302083 / 10000)
    [30000, 5000, 20000] 25000 192 ⟨rfl, rfl, rfl, rfl, rfl, rfl, rfl, rfl, by decide⟩ rfl
    ⟨?_, ?_, ?_, ?_⟩).2.2.1 (by decide)
  all_goals decide +kernel

end Rederive

end BeyoManager.ItemEconomics
