import BeyoManager.ItemEconomics.Tables

/-! # Configuration chains

The configuration of an item is selected by its major category and a day. Where at most one
version of a chain is applicable on the day, the selection does not depend on the order in which
the rows were read.
-/

namespace BeyoManager.ItemEconomics

/-- `EconomicsStatusEnum`, as far as a selection or an item's readiness has it. -/
inductive EconomicsStatus
  | itemMissingMajorCategory | notConfiguredNoCostGroup | notConfiguredAmbiguousCostGroup
  | notConfiguredNoBasisVersion | notConfiguredNoCostModelVersion
  | itemUnvalued | itemMissingExpectedPrice | itemMissingPurchaseCost | currencyMismatch
  | notEvaluated | ok
  deriving DecidableEq, Repr

/-- `EconomicsSelection`. -/
structure EconomicsSelection where
  status : EconomicsStatus
  selectedGroup : Option ProductionCostGroup
  basisVersion : Option ProductionCostBasisVersion
  costModelVersion : Option CostModelVersion
  deriving DecidableEq, Repr

/-- `resolve_major_category`. -/
def resolveMajorCategory : Option String → Option ItemMajorCategory
  | some "wood" => some .wood
  | some "seat" => some .seat
  | _ => none

/-- `is_applicable`. -/
def isApplicable {κ α : Type} (version : Version κ α) (onDate : Day) : Bool :=
  if version.isDeleted then false
  else
    version.effectiveFrom.all (fun effectiveFrom => effectiveFrom ≤ onDate) &&
      version.effectiveTo.all fun effectiveTo => effectiveTo > onDate

/-- `resolve_economics_selection`. -/
def resolveEconomicsSelection (majorCategory : Option ItemMajorCategory)
    (groups : List ProductionCostGroup) (basisVersions : List ProductionCostBasisVersion)
    (costModelVersions : List CostModelVersion) (onDate : Day) : EconomicsSelection :=
  match majorCategory with
  | none => ⟨.itemMissingMajorCategory, none, none, none⟩
  | some majorCategory =>
    match groups.filter fun group => !group.isDeleted && group.majorCategory == majorCategory with
    | [] => ⟨.notConfiguredNoCostGroup, none, none, none⟩
    | _ :: _ :: _ => ⟨.notConfiguredAmbiguousCostGroup, none, none, none⟩
    | [selectedGroup] =>
      match basisVersions.filter fun version =>
        version.chain.2 == selectedGroup.clientId && isApplicable version onDate with
      | [] => ⟨.notConfiguredNoBasisVersion, some selectedGroup, none, none⟩
      | selectedBasis :: _ =>
        match costModelVersions.filter fun version => isApplicable version onDate with
        | [] => ⟨.notConfiguredNoCostModelVersion, some selectedGroup, some selectedBasis, none⟩
        | selectedModel :: _ => ⟨.ok, some selectedGroup, some selectedBasis, some selectedModel⟩

/-- `resolve_item_economics_status`. -/
def resolveItemEconomicsStatus (valuation : Option ItemValuation) (selection : EconomicsSelection)
    (modelTerms : List CostModelTerm) : EconomicsStatus :=
  if selection.status ≠ .ok then selection.status
  else
    match valuation with
    | none => .itemUnvalued
    | some valuation =>
      let hasPurchaseTerm := modelTerms.any fun term => term.calculationType == .itemPurchaseCost
      if valuation.expectedSalePriceMinor = none then .itemMissingExpectedPrice
      else if hasPurchaseTerm ∧ valuation.purchaseCostMinor = none then .itemMissingPurchaseCost
      else
        match selection.basisVersion, selection.costModelVersion with
        | some basisVersion, some costModelVersion =>
          if valuation.currency ≠ basisVersion.content.currency ∨
            basisVersion.content.currency ≠ costModelVersion.content then .currencyMismatch
          else .notEvaluated
        | _, _ => .notEvaluated

section Applicable

variable {κ α : Type} {v : Version κ α} {versions versions' : List (Version κ α)} {d : Day}

theorem isApplicable_iff : isApplicable v d ↔ v.isDeleted = false ∧ v.span.Covers d := by
  rw [isApplicable, Version.span, Span.Covers, Span.StartsBy]
  cases v.isDeleted <;> cases v.effectiveFrom <;> cases v.effectiveTo <;> simp

def liveChain [DecidableEq κ] (k : κ) (versions : List (Version κ α)) : List (Version κ α) :=
  versions.filter fun v => v.chain == k && !v.isDeleted

theorem length_applicable_le [DecidableEq κ] {k : κ}
    (h : Span.Chain ((liveChain k versions).map Version.span)) :
    (versions.filter fun v => v.chain == k && isApplicable v d).length ≤ 1 := by
  have hle := h.length_filter_le d
  rw [List.filter_map, List.length_map, liveChain, List.filter_filter] at hle
  refine le_of_eq_of_le (congrArg List.length (List.filter_congr fun v _ => ?_)) hle
  rw [Bool.eq_iff_iff]
  simp only [Bool.and_eq_true, isApplicable_iff, Function.comp_apply, decide_eq_true_eq,
    Bool.not_eq_true']
  exact ⟨fun ⟨hk, hd, hc⟩ => ⟨hc, hk, hd⟩, fun ⟨hc, hk, hd⟩ => ⟨hk, hd, hc⟩⟩

theorem eq_of_perm_of_length_le {β : Type} {l l' : List β} (h : l.Perm l') (hl : l.length ≤ 1) :
    l = l' := by
  match l with
  | [] => exact (List.nil_perm.mp h).symm
  | [a] => exact List.singleton_perm.mp h

end Applicable

section Order

variable {category : Option ItemMajorCategory} {groups groups' : List ProductionCostGroup}
  {bases bases' : List ProductionCostBasisVersion} {models models' : List CostModelVersion}
  {d : Day}

/-- The selection does not depend on the order of the rows when at most one version is applicable
in the chain of each group and in that of the model. -/
theorem resolveEconomicsSelection_perm (hgroups : groups.Perm groups') (hbases : bases.Perm bases')
    (hmodels : models.Perm models')
    (hbasis : ∀ group ∈ groups, (bases.filter fun v =>
      v.chain.2 == group.clientId && isApplicable v d).length ≤ 1)
    (hmodel : (models.filter fun v => isApplicable v d).length ≤ 1) :
    resolveEconomicsSelection category groups bases models d =
      resolveEconomicsSelection category groups' bases' models' d := by
  rcases category with _ | category
  · rfl
  unfold resolveEconomicsSelection
  dsimp only
  have hactive := hgroups.filter fun group =>
    !group.isDeleted && group.majorCategory == category
  rw [← eq_of_perm_of_length_le (hmodels.filter fun v => isApplicable v d) hmodel]
  generalize hg : (groups.filter fun group =>
    !group.isDeleted && group.majorCategory == category) = active at hactive ⊢
  generalize (groups'.filter fun group =>
    !group.isDeleted && group.majorCategory == category) = active' at hactive ⊢
  match active with
  | [] => rw [List.nil_perm.mp hactive]
  | [group] =>
    rw [← List.singleton_perm.mp hactive]
    have hmem : group ∈ groups := List.mem_of_mem_filter (hg ▸ List.mem_singleton.mpr rfl)
    dsimp only
    rw [← eq_of_perm_of_length_le (hbases.filter fun v =>
      v.chain.2 == group.clientId && isApplicable v d) (hbasis group hmem)]
  | _ :: _ :: _ =>
    -- two groups are ambiguous in every order
    have hlength := hactive.length_eq
    match active' with
    | [] => simp at hlength
    | [_] => simp at hlength
    | _ :: _ :: _ => rfl

end Order

end BeyoManager.ItemEconomics
