import BeyoManager.ItemEconomics.Configuration

/-! # Commands on versions

A version is created after the open one of its chain, which it closes, and is deleted when no
evaluation refers to it.
-/

namespace BeyoManager.ItemEconomics

open Relational Transition

/-- `admission_error`. -/
def admissionError {κ α : Type} (identity : String) (effectiveFrom : Option Day)
    (openVersion : Option (Version κ α)) (today : Day) : Except CommandError Unit := do
  throwIf (effectiveFrom.any fun effectiveFrom => effectiveFrom > today) (.validationError
    (identity ++ "_EFFECTIVE_FROM_FUTURE: effective_from cannot be after today"))
  match openVersion with
  | none => pure ()
  | some openVersion =>
    match effectiveFrom with
    | none => .error (.validationError
        (identity ++ "_EFFECTIVE_FROM_REQUIRED: effective_from is required"))
    | some effectiveFrom =>
      throwIf (openVersion.effectiveFrom.any fun openFrom => effectiveFrom ≤ openFrom)
        (.validationError (identity ++
          "_EFFECTIVE_FROM_NOT_AFTER_OPEN: effective_from must be after the open version"))

section Generic

variable {κ α : Type} [DecidableEq κ]

def openVersion (chain : κ) (versions : List (Version κ α)) : Option (Version κ α) :=
  versions.find? fun v => v.chain == chain && v.effectiveTo == none && !v.isDeleted

/-- Close the open version of a chain and add a new one to it. -/
def insertVersion (chain : κ) (clientId : String) (effectiveFrom : Option Day) (content : α)
    (versions : List (Version κ α)) : Except CommandError (List (Version κ α)) :=
  let closed :=
    match openVersion chain versions with
    | some openVersion =>
      updateWhere (fun v => v.clientId == openVersion.clientId)
        (fun v => { v with effectiveTo := effectiveFrom }) versions
    | none => versions
  insertRecords Version.clientId (.integrityError "pkey")
    [⟨clientId, chain, effectiveFrom, none, false, content⟩] closed

/-- `get_model` and `get_basis`: a version of the workspace that is not deleted. -/
def getVersion (notFound : String) (inWorkspace : κ → Bool) (clientId : String)
    (versions : List (Version κ α)) : Except CommandError (Version κ α) :=
  getOr (.notFound notFound)
    (versions.find? fun v => inWorkspace v.chain && v.clientId == clientId && !v.isDeleted)

def markDeleted (clientId : String) (versions : List (Version κ α)) : List (Version κ α) :=
  updateWhere (fun v => v.clientId == clientId) (fun v => { v with isDeleted := true }) versions

end Generic

/-- What `create_cost_model_version` reads of its request. -/
structure CostModelVersionCreateRequest where
  effectiveFrom : Option Day
  currency : ItemCurrency
  terms : List CostModelTerm

/-- The text of a term that does not carry the amounts of its type. -/
def shapeMessage : CostModelTermCalculationType → String
  | .percentageOfExpectedSalePrice => "percentage term has an invalid value shape"
  | .fixedAmount => "fixed term has an invalid value shape"
  | .itemPurchaseCost => "purchase-cost term has an invalid value shape"

/-- `create_cost_model_version`. -/
def createCostModelVersion (today : Day) (workspaceId newId : String)
    (request : CostModelVersionCreateRequest) (db : Db) : Except CommandError Db := do
  throwIf (¬ (request.terms.map (·.name)).Nodup) (.validationError
    "ITEM_COST_TERM_NAME_TAKEN: term names must be unique within a version")
  throwIf (request.terms.countP (fun term => term.calculationType = .itemPurchaseCost) > 1)
    (.validationError
      "ITEM_COST_PURCHASE_TERM_DUPLICATE: only one item_purchase_cost term is allowed")
  request.terms.forM fun term =>
    throwIf (¬ presenceValid term.calculationType term.percentValue term.fixedAmountMinor)
      (.validationError ("ITEM_COST_TERM_SHAPE_INVALID: " ++ shapeMessage term.calculationType))
  admissionError "ITEM_COST_MODEL_VERSION" request.effectiveFrom
    (openVersion workspaceId db.modelVersions) today
  let modelVersions ← insertVersion workspaceId newId request.effectiveFrom request.currency
    db.modelVersions
  pure { db with
    modelVersions := modelVersions
    modelTerms := db.modelTerms ++ request.terms.map fun term =>
      { toCostModelTerm := term, workspaceId := workspaceId, costModelVersionId := newId
        isDeleted := false } }

/-- `delete_cost_model_version`. -/
def deleteCostModelVersion (workspaceId clientId : String) (db : Db) : Except CommandError Db := do
  let version ← getVersion "Cost model version not found." (· == workspaceId) clientId
    db.modelVersions
  throwIf (db.evaluations.any fun e => e.costModelVersionId == version.clientId) (.validationError
    "ITEM_COST_MODEL_VERSION_IN_USE: version is referenced by an evaluation")
  pure { db with modelVersions := markDeleted version.clientId db.modelVersions }

/-- What `create_production_cost_basis_version` reads of its request. -/
structure ProductionCostBasisVersionCreateRequest where
  productionCostGroupId : String
  effectiveFrom : Option Day
  fixedMonthlyCostMinor : ℤ
  currency : ItemCurrency
  monthlyPaidHours : ℚ
  planningUtilizationPercent : ℚ

def calculated {α : Type} : Except CalculatorError α → Except CommandError α
  | .ok a => .ok a
  | .error e => .error (.calculatorError e)

def ProductionCostBasis.Checked (basis : ProductionCostBasis) : Prop :=
  0 < basis.fixedMonthlyCostMinor ∧ 0 < basis.costPerWorkerMinuteMinor ∧
    0 < basis.monthlyPaidHours ∧ 0 < basis.planningUtilizationPercent ∧
    basis.planningUtilizationPercent ≤ 100

instance (basis : ProductionCostBasis) : Decidable basis.Checked :=
  inferInstanceAs (Decidable (_ ∧ _ ∧ _ ∧ _ ∧ _))

/-- `create_production_cost_basis_version`. -/
def createProductionCostBasisVersion (today : Day) (workspaceId newId : String)
    (request : ProductionCostBasisVersionCreateRequest) (db : Db) : Except CommandError Db := do
  let group ← getOr (.notFound "Production cost group not found.") (db.groups.find? fun g =>
    g.workspaceId == workspaceId && g.clientId == request.productionCostGroupId && !g.isDeleted)
  admissionError "ITEM_COST_BASIS_VERSION" request.effectiveFrom
    (openVersion (workspaceId, group.clientId) db.basisVersions) today
  let rate ← calculated (calculateCostPerWorkerMinute (some request.fixedMonthlyCostMinor)
    (some request.monthlyPaidHours) (some request.planningUtilizationPercent))
  let basis : ProductionCostBasis :=
    { fixedMonthlyCostMinor := request.fixedMonthlyCostMinor
      currency := request.currency
      monthlyPaidHours := request.monthlyPaidHours
      planningUtilizationPercent := request.planningUtilizationPercent
      costPerWorkerMinuteMinor := rate }
  throwIf (¬ basis.Checked) (.integrityError "ck_pcbv")
  let basisVersions ← insertVersion (workspaceId, group.clientId) newId request.effectiveFrom basis
    db.basisVersions
  pure { db with basisVersions := basisVersions }

/-- `delete_production_cost_basis_version`. -/
def deleteProductionCostBasisVersion (workspaceId clientId : String) (db : Db) :
    Except CommandError Db := do
  let version ← getVersion "Production cost basis version not found." (·.1 == workspaceId) clientId
    db.basisVersions
  throwIf (db.evaluations.any fun e => e.productionCostBasisVersionId == version.clientId)
    (.validationError "ITEM_COST_BASIS_VERSION_IN_USE: version is referenced by an evaluation")
  pure { db with basisVersions := markDeleted version.clientId db.basisVersions }

section Chains

variable {κ α : Type} [DecidableEq κ] {versions versions' : List (Version κ α)} {chain k : κ}
  {clientId : String} {effectiveFrom : Option Day} {content : α} {v : Version κ α}

structure Chained (versions : List (Version κ α)) : Prop where
  keyed : Keyed Version.clientId versions
  chain : ∀ k, Span.Chain ((liveChain k versions).map Version.span)

theorem mem_liveChain : v ∈ liveChain k versions ↔
    v ∈ versions ∧ v.chain = k ∧ v.isDeleted = false := by
  simp [liveChain]

theorem openVersion_eq_some (h : openVersion chain versions = some v) :
    v ∈ liveChain chain versions ∧ v.effectiveTo = none := by
  have hv := List.find?_some h
  simp only [Bool.and_eq_true, beq_iff_eq, Bool.not_eq_true'] at hv
  exact ⟨mem_liveChain.mpr ⟨List.mem_of_find?_eq_some h, hv.1.1, hv.2⟩, hv.1.2⟩

theorem Chained.openVersion_eq_none (h : Chained versions)
    (hnone : openVersion chain versions = none) : liveChain chain versions = [] := by
  refine List.eq_nil_iff_forall_not_mem.mpr fun v hv => ?_
  obtain ⟨s, hs, hopen⟩ := (h.chain chain).exists_open (List.mem_map_of_mem hv)
  obtain ⟨w, hw, rfl⟩ := List.mem_map.mp hs
  obtain ⟨hmem, hk, hd⟩ := mem_liveChain.mp hw
  have hnot := List.find?_eq_none.mp hnone w hmem
  have hto : w.effectiveTo = none := hopen
  simp [hk, hd, hto] at hnot

omit [DecidableEq κ] in
theorem admissionError_eq_ok {identity : String} {today : Day} {o : Option (Version κ α)} {u : Unit}
    (h : admissionError identity effectiveFrom o today = .ok u) :
    ∀ v ∈ o, ∃ e, effectiveFrom = some e ∧ ∀ f ∈ v.effectiveFrom, f < e := by
  rintro v ⟨⟩
  have h := (throwIf_bind_eq_ok.mp h).2
  rcases effectiveFrom with _ | e
  · cases h
  · refine ⟨e, rfl, fun f hf => ?_⟩
    have hnot := throwIf_eq_ok.mp h
    rw [Option.mem_def.mp hf] at hnot
    simpa using hnot

/-- One version of a chain is written: it comes first in a reordering of the chain. -/
theorem liveChain_update (hkeyed : Keyed Version.clientId versions)
    (hv : v ∈ liveChain chain versions) {f : Version κ α → Version κ α}
    (hf : ∀ w, (f w).chain = w.chain ∧ (f w).isDeleted = w.isDeleted) :
    (liveChain chain (updateWhere (fun w => w.clientId == v.clientId) f versions)).Perm
        (f v :: (liveChain chain versions).filter (·.clientId ≠ v.clientId)) ∧
      ∀ k, k ≠ chain → liveChain k (updateWhere (fun w => w.clientId == v.clientId) f versions) =
        liveChain k versions := by
  have hlive : ∀ k, liveChain k (updateWhere (fun w => w.clientId == v.clientId) f versions) =
      updateWhere (fun w => w.clientId == v.clientId) f (liveChain k versions) := fun k =>
    filter_updateWhere fun w _ _ => by rw [(hf w).1, (hf w).2]
  refine ⟨?_, fun k hk => ?_⟩
  · rw [hlive]
    have hperm := ((keyed_filter hkeyed _).perm_cons hv).map fun w =>
      if w.clientId == v.clientId then f w else w
    refine hperm.trans (List.Perm.of_eq ?_)
    rw [List.map_cons, if_pos (beq_self_eq_true _)]
    refine congrArg (f v :: ·) (updateWhere_of_forall_not fun w hw => ?_)
    simpa using (List.mem_filter.mp hw).2
  · rw [hlive, updateWhere_of_forall_not]
    intro w hw
    obtain ⟨hmem, hwk, -⟩ := mem_liveChain.mp hw
    obtain ⟨hvmem, hvk, -⟩ := mem_liveChain.mp hv
    rw [beq_eq_false_iff_ne]
    intro hid
    obtain rfl := hkeyed.inj hmem hvmem hid
    exact hk (hwk.symm.trans hvk)

/-- The chains after an admitted request: the open version is closed where the new one begins. -/
theorem Chained.insertVersion (h : Chained versions)
    (hadmitted : ∀ v ∈ openVersion chain versions,
      ∃ e, effectiveFrom = some e ∧ ∀ f ∈ v.effectiveFrom, f < e)
    (hok : insertVersion chain clientId effectiveFrom content versions = .ok versions') :
    Chained versions' := by
  rw [ItemEconomics.insertVersion] at hok
  obtain ⟨hkeyed, rfl⟩ := insertRecords_eq_ok.mp hok
  refine ⟨hkeyed, fun k => ?_⟩
  rw [liveChain, List.filter_append, ← liveChain]
  rcases hopen : openVersion chain versions with _ | o
  · dsimp only
    by_cases hk : chain = k
    · subst hk
      rw [h.openVersion_eq_none hopen, List.filter_cons_of_pos (by simp)]
      exact Span.chain_singleton effectiveFrom
    · rw [List.filter_cons_of_neg (by simp [hk]), List.filter_nil, List.append_nil]
      exact h.chain k
  · dsimp only
    obtain ⟨hlive, hto⟩ := openVersion_eq_some hopen
    obtain ⟨e, rfl, hafter⟩ := hadmitted o hopen
    obtain ⟨hperm, hother⟩ := liveChain_update h.keyed hlive
      (f := fun v => { v with effectiveTo := some e }) fun _ => ⟨rfl, rfl⟩
    by_cases hk : chain = k
    · subst hk
      rw [List.filter_cons_of_pos (by simp), List.filter_nil, List.map_append]
      have hchain := (h.chain chain).perm
        (((keyed_filter h.keyed _).perm_cons hlive).map Version.span)
      refine (hchain.extend hto hafter).perm ?_
      exact (List.perm_append_comm.trans ((hperm.map Version.span).cons _)).symm
    · rw [List.filter_cons_of_neg (by simp [hk]), List.filter_nil, List.append_nil,
        hother k (Ne.symm hk)]
      exact h.chain k

/-- The version starts no later than the others of its chain. -/
def IsEarliest (v : Version κ α) (versions : List (Version κ α)) : Prop :=
  ∀ w ∈ liveChain v.chain versions, ∀ f ∈ v.effectiveFrom, ∃ g ∈ w.effectiveFrom, f ≤ g

theorem liveChain_markDeleted (k : κ) : liveChain k (markDeleted v.clientId versions) =
    (liveChain k versions).filter (·.clientId ≠ v.clientId) := by
  rw [liveChain, markDeleted, filter_updateWhere_of_not fun w _ _ => by simp]
  refine List.filter_congr fun w _ => ?_
  simp [beq_eq_decide]

/-- After a deletion the table is still one of chains if and only if the version was the earliest
of its chain. -/
theorem Chained.markDeleted_iff (h : Chained versions) (hv : v ∈ liveChain chain versions) :
    Chained (markDeleted v.clientId versions) ↔ IsEarliest v versions := by
  obtain ⟨hmem, rfl, hlive⟩ := mem_liveChain.mp hv
  have hsplit : Span.Chain (v.span ::
      ((liveChain v.chain versions).filter (·.clientId ≠ v.clientId)).map Version.span) :=
    (h.chain v.chain).perm (((keyed_filter h.keyed _).perm_cons hv).map Version.span)
  have hearliest : IsEarliest v versions ↔ ∀ r ∈ ((liveChain v.chain versions).filter
      (·.clientId ≠ v.clientId)).map Version.span, ∀ d, r.StartsBy d → v.span.StartsBy d := by
    simp only [Span.forall_startsBy_iff, List.forall_mem_map]
    constructor
    · exact fun hall w hw => hall w (List.mem_of_mem_filter hw)
    · intro hall w hw
      by_cases hid : w.clientId = v.clientId
      · obtain rfl := h.keyed.inj (mem_liveChain.mp hw).1 hmem hid
        exact fun f hf => ⟨f, hf, le_rfl⟩
      · exact hall w (List.mem_filter.mpr ⟨hw, by simpa using hid⟩)
  rw [hearliest, ← hsplit.erase_iff]
  constructor
  · intro hchained
    have hchain := hchained.chain v.chain
    rwa [liveChain_markDeleted] at hchain
  · intro hchain
    refine ⟨keyed_update h.keyed fun _ _ _ => rfl, fun k => ?_⟩
    rw [liveChain_markDeleted]
    by_cases hk : k = v.chain
    · rw [hk]
      exact hchain
    · have hsame : (liveChain k versions).filter (·.clientId ≠ v.clientId) =
        liveChain k versions := by
        refine List.filter_eq_self.mpr fun w hw => ?_
        obtain ⟨hwmem, hwk, -⟩ := mem_liveChain.mp hw
        rw [decide_eq_true_eq]
        intro hid
        obtain rfl := h.keyed.inj hwmem hmem hid
        exact hk hwk.symm
      rw [hsame]
      exact h.chain k

end Chains

end BeyoManager.ItemEconomics
