import BeyoManager.ItemEconomics.BudgetDivision
import BeyoManager.ItemEconomics.PriceScenario
import BeyoManager.ItemEconomics.Tables
import Mathlib.Data.Finset.Basic

/-! # Item-aware typical times

A section's typical time is measured on several populations of its history, from the
full properties profile of the item down to the whole section. A task's participating
sections are read from one population, the sections outside from the best of their own.
-/

namespace BeyoManager.ItemEconomics.TypicalFilters

/-- `TYPICAL_MIN_SAMPLE_SIZE`. -/
def typicalMinSampleSize : ℤ := 5

/-- `COMPARABILITY_PROFILE`. -/
def comparabilityProfile : String := "primary_item_category_v1"

/-- `COMPARABILITY_PROFILE_PROPERTIES`. -/
def comparabilityProfileProperties : String := "primary_item_category_properties_v2"

/-- `RECONCILIATION_METHOD`. -/
def reconciliationMethod : String := "uniform_basis_v1"

section Spec

/-- One partial match of the ladder: its keys, and the item's values for them. -/
structure PropertiesFacet where
  keys : List String
  matchJson : String
  deriving DecidableEq, Repr

def PropertiesFacet.name (facet : PropertiesFacet) : String := String.intercalate "+" facet.keys

/-- A range of centimetres; each side may be open. -/
abbrev CmRange := Option ℤ × Option ℤ

/-- Both sides are given, in the wrong order. -/
def Inverted (range : Option CmRange) : Prop :=
  ∃ lo hi : ℤ, range = some (some lo, some hi) ∧ hi < lo

instance : DecidablePred Inverted := fun range =>
  match range with
  | some (some lo, some hi) => decidable_of_iff (hi < lo) ⟨fun h => ⟨lo, hi, rfl, h⟩, by
      rintro ⟨_, _, h, hlt⟩
      obtain ⟨rfl, rfl⟩ : lo = _ ∧ hi = _ := by simpa using h
      exact hlt⟩
  | none | some (none, _) | some (some _, none) => isFalse (by rintro ⟨_, _, h, _⟩; simp at h)

/-- The arguments of `TypicalFilterSpec`. -/
structure SpecFields where
  itemCategoryIds : Option (Finset String) := none
  majorCategories : Option (Finset ItemMajorCategory) := none
  widthCm : Option CmRange := none
  heightCm : Option CmRange := none
  depthCm : Option CmRange := none
  canHaveUpholstery : Option Bool := none
  designers : Option (Finset String) := none
  propertiesSignature : Option String := none
  propertiesFacets : List PropertiesFacet := []
  deriving DecidableEq

/-- A canonical description of the population on which typical times are measured. -/
structure TypicalFilterSpec extends SpecFields where
  itemCategoryIds_ne : itemCategoryIds ≠ some ∅
  majorCategories_ne : majorCategories ≠ some ∅
  designers_ne : designers ≠ some ∅
  signature_ne : propertiesSignature ≠ some ""
  facets_signed : propertiesSignature = none → propertiesFacets = []
  width_ordered : ¬ Inverted widthCm
  height_ordered : ¬ Inverted heightCm
  depth_ordered : ¬ Inverted depthCm

def canonicalSet {α : Type} [DecidableEq α] (values : Option (Finset α)) : Option (Finset α) :=
  if values = some ∅ then none else values

def canonicalSignature (signature : Option String) : Option String :=
  if signature = some "" then none else signature

theorem canonicalSet_ne {α : Type} [DecidableEq α] (values : Option (Finset α)) :
    canonicalSet values ≠ some ∅ := by
  unfold canonicalSet
  split <;> simp_all

theorem canonicalSignature_ne (signature : Option String) :
    canonicalSignature signature ≠ some "" := by
  unfold canonicalSignature
  split <;> simp_all

def boundError (fieldName : String) : ValueError :=
  ⟨fieldName ++ " lower bound must not exceed upper bound"⟩

/-- `TypicalFilterSpec.__post_init__`. -/
def TypicalFilterSpec.postInit (fields : SpecFields) : Except ValueError TypicalFilterSpec :=
  let signature := canonicalSignature fields.propertiesSignature
  if width : Inverted fields.widthCm then .error (boundError "width_cm")
  else if height : Inverted fields.heightCm then .error (boundError "height_cm")
  else if depth : Inverted fields.depthCm then .error (boundError "depth_cm")
  else .ok {
    itemCategoryIds := canonicalSet fields.itemCategoryIds
    majorCategories := canonicalSet fields.majorCategories
    widthCm := fields.widthCm
    heightCm := fields.heightCm
    depthCm := fields.depthCm
    canHaveUpholstery := fields.canHaveUpholstery
    designers := canonicalSet fields.designers
    propertiesSignature := signature
    propertiesFacets := if signature = none then [] else fields.propertiesFacets
    itemCategoryIds_ne := canonicalSet_ne _
    majorCategories_ne := canonicalSet_ne _
    designers_ne := canonicalSet_ne _
    signature_ne := canonicalSignature_ne _
    facets_signed := fun h => if_pos h
    width_ordered := width
    height_ordered := height
    depth_ordered := depth }

/-- `TypicalFilterSpec()`. -/
def TypicalFilterSpec.empty : TypicalFilterSpec where
  itemCategoryIds_ne := by simp
  majorCategories_ne := by simp
  designers_ne := by simp
  signature_ne := by simp
  facets_signed := fun _ => rfl
  width_ordered := by decide
  height_ordered := by decide
  depth_ordered := by decide

/-- `is_narrowing`. -/
def TypicalFilterSpec.isNarrowing (spec : TypicalFilterSpec) : Bool :=
  spec.itemCategoryIds.isSome || spec.majorCategories.isSome || spec.widthCm.isSome ||
    spec.heightCm.isSome || spec.depthCm.isSome || spec.canHaveUpholstery.isSome ||
    spec.designers.isSome

def TypicalFilterSpec.isSigned (spec : TypicalFilterSpec) : Bool :=
  spec.isNarrowing && spec.propertiesSignature.isSome

end Spec

section Evidence

def usable (typicalWorkerSeconds : Option ℤ) (sampleCount : ℤ) : Bool :=
  decide (typicalMinSampleSize ≤ sampleCount) && typicalWorkerSeconds.any (decide <| 0 < ·)

structure FacetEvidence where
  typicalWorkerSeconds : Option ℤ
  sampleCount : ℤ
  typicalUnitWorkerSeconds : Option ℚ := none
  deriving DecidableEq, Repr

/-- `FacetEvidence.has_usable`. -/
def FacetEvidence.hasUsable (facet : FacetEvidence) : Bool :=
  usable facet.typicalWorkerSeconds facet.sampleCount

structure SectionTypicalEvidence where
  workingSectionId : String
  narrowedTypicalWorkerSeconds : Option ℤ
  narrowedSampleCount : ℤ
  sectionTypicalWorkerSeconds : Option ℤ
  sectionSampleCount : ℤ
  narrowedTypicalUnitWorkerSeconds : Option ℚ := none
  sectionTypicalUnitWorkerSeconds : Option ℚ := none
  propertiesTypicalWorkerSeconds : Option ℤ := none
  propertiesSampleCount : ℤ := 0
  propertiesTypicalUnitWorkerSeconds : Option ℚ := none
  /-- Aligned by index with the facets of the spec. -/
  facetEvidence : List FacetEvidence := []
  deriving DecidableEq, Repr

namespace SectionTypicalEvidence

variable (evidence : SectionTypicalEvidence)

def hasNarrowed : Bool := decide (typicalMinSampleSize ≤ evidence.narrowedSampleCount)

def hasSection : Bool := decide (typicalMinSampleSize ≤ evidence.sectionSampleCount)

def hasProperties : Bool := decide (typicalMinSampleSize ≤ evidence.propertiesSampleCount)

def hasUsableNarrowed : Bool :=
  usable evidence.narrowedTypicalWorkerSeconds evidence.narrowedSampleCount

def hasUsableProperties : Bool :=
  usable evidence.propertiesTypicalWorkerSeconds evidence.propertiesSampleCount

/-- `_facet_usable`. -/
def facetUsable (facetIndex : ℕ) : Bool :=
  evidence.facetEvidence[facetIndex]?.any FacetEvidence.hasUsable

end SectionTypicalEvidence

/-- `_zero_evidence`. -/
def zeroEvidence (sectionId : String) : SectionTypicalEvidence where
  workingSectionId := sectionId
  narrowedTypicalWorkerSeconds := none
  narrowedSampleCount := 0
  sectionTypicalWorkerSeconds := none
  sectionSampleCount := 0

end Evidence

section Resolution

inductive TypicalResolutionPolicy
  | broadenToSection
  | answerAsAsked
  deriving DecidableEq, Repr

/-- The values of `typical_basis`. -/
inductive TypicalBasis
  | itemPropertiesNarrowed
  | itemFacetNarrowed
  | itemNarrowed
  | sectionWide
  | insufficientSample
  deriving DecidableEq, Repr

/-- `SelectedTypical`, with all that it reports. -/
structure SectionTypical where
  workingSectionId : String
  typicalWorkerSeconds : Option ℤ
  typicalBasis : TypicalBasis
  evidence : SectionTypicalEvidence
  participates : Bool
  sampleCount : ℤ
  typicalUnitWorkerSeconds : Option ℚ := none
  deriving DecidableEq, Repr

variable (evidence : SectionTypicalEvidence) (participates : Bool)

def selectProperties : SectionTypical where
  workingSectionId := evidence.workingSectionId
  typicalWorkerSeconds := evidence.propertiesTypicalWorkerSeconds
  typicalBasis := .itemPropertiesNarrowed
  evidence := evidence
  participates := participates
  sampleCount := evidence.propertiesSampleCount
  typicalUnitWorkerSeconds := evidence.propertiesTypicalUnitWorkerSeconds

def selectFacet (facet : FacetEvidence) : SectionTypical where
  workingSectionId := evidence.workingSectionId
  typicalWorkerSeconds := facet.typicalWorkerSeconds
  typicalBasis := .itemFacetNarrowed
  evidence := evidence
  participates := participates
  sampleCount := facet.sampleCount
  typicalUnitWorkerSeconds := facet.typicalUnitWorkerSeconds

def selectNarrowed : SectionTypical where
  workingSectionId := evidence.workingSectionId
  typicalWorkerSeconds := evidence.narrowedTypicalWorkerSeconds
  typicalBasis := .itemNarrowed
  evidence := evidence
  participates := participates
  sampleCount := evidence.narrowedSampleCount
  typicalUnitWorkerSeconds := evidence.narrowedTypicalUnitWorkerSeconds

def selectSection : SectionTypical where
  workingSectionId := evidence.workingSectionId
  typicalWorkerSeconds := evidence.sectionTypicalWorkerSeconds
  typicalBasis := .sectionWide
  evidence := evidence
  participates := participates
  sampleCount := evidence.sectionSampleCount
  typicalUnitWorkerSeconds := evidence.sectionTypicalUnitWorkerSeconds

def selectInsufficient (sampleCount : ℤ) : SectionTypical where
  workingSectionId := evidence.workingSectionId
  typicalWorkerSeconds := none
  typicalBasis := .insufficientSample
  evidence := evidence
  participates := participates
  sampleCount := sampleCount

def resolveSectionWide : SectionTypical :=
  if evidence.hasSection then selectSection evidence false
  else selectInsufficient evidence false evidence.sectionSampleCount

def firstUsableFacet (spec : TypicalFilterSpec) : Option FacetEvidence :=
  (List.range spec.propertiesFacets.length).findSome? fun facetIndex =>
    evidence.facetEvidence[facetIndex]?.filter FacetEvidence.hasUsable

/-- The policy `BROADEN_TO_SECTION`. -/
def broadenToSection (spec : TypicalFilterSpec) : SectionTypical :=
  if spec.propertiesSignature.isSome && evidence.hasUsableProperties then
    selectProperties evidence false
  else match firstUsableFacet evidence spec with
    | some facet => selectFacet evidence false facet
    | none =>
      if evidence.hasUsableNarrowed then selectNarrowed evidence false
      else resolveSectionWide evidence

/-- The policy `ANSWER_AS_ASKED`. -/
def answerAsAsked (spec : TypicalFilterSpec) : SectionTypical :=
  if spec.propertiesSignature.isSome then
    if evidence.hasProperties then selectProperties evidence false
    else selectInsufficient evidence false evidence.propertiesSampleCount
  else if evidence.hasNarrowed then selectNarrowed evidence false
  else selectInsufficient evidence false evidence.narrowedSampleCount

/-- `resolve_section_typical`. -/
def resolveSectionTypical (spec : TypicalFilterSpec) (policy : TypicalResolutionPolicy) :
    SectionTypical :=
  if !spec.isNarrowing then resolveSectionWide evidence
  else match policy with
    | .broadenToSection => broadenToSection evidence spec
    | .answerAsAsked => answerAsAsked evidence spec

end Resolution

section Reconciliation

/-- The population that all participating sections are read from. -/
inductive Rung
  | properties
  | facet (index : ℕ)
  | category
  | sectionWide
  deriving DecidableEq, Repr

/-- The values of `task_typical_basis`. -/
inductive TaskTypicalBasis
  | itemPropertiesNarrowedUniform
  | itemFacetNarrowedUniform
  | itemNarrowedUniform
  | sectionWideUniform
  deriving DecidableEq, Repr

def Rung.taskBasis : Rung → TaskTypicalBasis
  | .properties => .itemPropertiesNarrowedUniform
  | .facet _ => .itemFacetNarrowedUniform
  | .category => .itemNarrowedUniform
  | .sectionWide => .sectionWideUniform

structure TaskTypicalSelection where
  taskTypicalBasis : TaskTypicalBasis
  reconciliationMethod : String
  comparabilityProfile : String
  appliedFilter : Option TypicalFilterSpec
  participatingSectionIds : List String
  selected : List (String × SectionTypical)
  /-- The name of the facet, when the common rung is one. -/
  facet : Option String

abbrev TaskEvidence := List (String × SectionTypicalEvidence)

variable (evidence : TaskEvidence) (spec : TypicalFilterSpec)
  (participatingSectionIds : List String)

/-- `all(...)` over sections; it stops at the first one that fails the test. -/
def allSections (test : SectionTypicalEvidence → Bool) : List String → Except LookupError Bool
  | [] => .ok true
  | sectionId :: sectionIds => do
    let sectionEvidence ← Dict.getItem LookupError.keyError evidence sectionId
    if test sectionEvidence then allSections test sectionIds else pure false

/-- `properties_uniform`. -/
def propertiesUniform : Except LookupError Bool :=
  if spec.isNarrowing && spec.propertiesSignature.isSome && participatingSectionIds ≠ [] then
    allSections evidence SectionTypicalEvidence.hasUsableProperties participatingSectionIds
  else .ok false

def firstUniformFacet : List ℕ → Except LookupError (Option ℕ)
  | [] => .ok none
  | index :: indices => do
    let uniform ← allSections evidence (fun e => e.facetUsable index) participatingSectionIds
    if uniform then pure (some index) else firstUniformFacet indices

/-- `facet_uniform_index`, when the properties are not uniform. -/
def facetUniformIndex : Except LookupError (Option ℕ) :=
  if spec.isNarrowing && participatingSectionIds ≠ [] then
    firstUniformFacet evidence participatingSectionIds (List.range spec.propertiesFacets.length)
  else .ok none

/-- `narrowed_uniform`, when neither the properties nor a facet is uniform. -/
def narrowedUniform : Except LookupError Bool :=
  if spec.isNarrowing && participatingSectionIds ≠ [] then
    allSections evidence SectionTypicalEvidence.hasUsableNarrowed participatingSectionIds
  else .ok false

def uniformRung : Except LookupError Rung := do
  let properties ← propertiesUniform evidence spec participatingSectionIds
  if properties then pure .properties
  else do
    let facet ← facetUniformIndex evidence spec participatingSectionIds
    match facet with
    | some index => pure (.facet index)
    | none => do
      let narrowed ← narrowedUniform evidence spec participatingSectionIds
      pure (if narrowed then .category else .sectionWide)

def participantTypical (sectionEvidence : SectionTypicalEvidence) :
    Rung → Except LookupError SectionTypical
  | .properties => .ok (selectProperties sectionEvidence true)
  | .facet index =>
    match sectionEvidence.facetEvidence[index]? with
    | some facet => .ok (selectFacet sectionEvidence true facet)
    | none => .error .indexError
  | .category => .ok (selectNarrowed sectionEvidence true)
  | .sectionWide => .ok {
      -- the seconds are not guarded by the sample threshold here, only their unit twin is
      selectSection sectionEvidence true with
      typicalBasis := if sectionEvidence.hasSection then .sectionWide else .insufficientSample
      typicalUnitWorkerSeconds :=
        if sectionEvidence.hasSection then sectionEvidence.sectionTypicalUnitWorkerSeconds
        else none }

def sectionTypical (rung : Rung) (sectionId : String) : Except LookupError SectionTypical := do
  let sectionEvidence ← Dict.getItem LookupError.keyError evidence sectionId
  if sectionId ∈ participatingSectionIds then do
    let typical ← participantTypical sectionEvidence rung
    pure { typical with workingSectionId := sectionId }
  else
    pure { resolveSectionTypical sectionEvidence spec .broadenToSection with participates := false }

def facetName : Rung → Except LookupError (Option String)
  | .facet index =>
    match spec.propertiesFacets[index]? with
    | some facet => .ok (some facet.name)
    | none => .error .indexError
  | _ => .ok none

/-- `reconcile_task_typicals`; the sections are listed in the order in which they are iterated. -/
def reconcileTaskTypicals (evidenceBySection : String → Option SectionTypicalEvidence)
    (spec : Option TypicalFilterSpec) (participatingSectionIds sectionIds : List String) :
    Except LookupError TaskTypicalSelection := do
  let effectiveSpec := spec.getD .empty
  let evidence := sectionIds.map fun sectionId =>
    (sectionId, (evidenceBySection sectionId).getD (zeroEvidence sectionId))
  let rung ← uniformRung evidence effectiveSpec participatingSectionIds
  let selected ← sectionIds.mapM fun sectionId => do
    let typical ← sectionTypical evidence effectiveSpec participatingSectionIds rung sectionId
    pure (sectionId, typical)
  let facet ← facetName effectiveSpec rung
  pure {
    taskTypicalBasis := rung.taskBasis
    reconciliationMethod := reconciliationMethod
    comparabilityProfile :=
      if effectiveSpec.isSigned then comparabilityProfileProperties else comparabilityProfile
    appliedFilter := if effectiveSpec.isNarrowing then some effectiveSpec else none
    participatingSectionIds := participatingSectionIds
    selected := selected
    facet := facet }

end Reconciliation

section Measurement

/-- One task of a section's history: its worked seconds, and the quantity of its primary item. -/
structure TypicalSample where
  groupSeconds : ℤ
  quantity : Option ℤ
  deriving DecidableEq, Repr

/-- `unit_seconds`. -/
def TypicalSample.unitSeconds (sample : TypicalSample) : ℚ :=
  sample.groupSeconds / (max 1 (sample.quantity.getD 1) : ℤ)

/-- `percentile_cont(0.5)`. -/
def percentileCont (values : List ℚ) : Option ℚ := (median values).toOption

def measuredTypical (samples : List TypicalSample) : Option ℤ :=
  if typicalMinSampleSize ≤ samples.length then
    (percentileCont (samples.map fun sample => (sample.groupSeconds : ℚ))).map roundHalfEven
  else none

def measuredUnitTypical (samples : List TypicalSample) : Option ℚ :=
  if typicalMinSampleSize ≤ samples.length then
    percentileCont (samples.map TypicalSample.unitSeconds)
  else none

def measuredFacet (samples : List TypicalSample) : FacetEvidence where
  typicalWorkerSeconds := measuredTypical samples
  sampleCount := samples.length
  typicalUnitWorkerSeconds := measuredUnitTypical samples

/-- The samples of a section in each of the populations of a spec. -/
structure SectionSamples where
  all : List TypicalSample
  narrowed : List TypicalSample := []
  properties : List TypicalSample := []
  facets : List (List TypicalSample) := []

/-- The row of `typical_times_statement` for a section, read as evidence. -/
def SectionSamples.evidence (sectionId : String) (samples : SectionSamples) :
    SectionTypicalEvidence where
  workingSectionId := sectionId
  narrowedTypicalWorkerSeconds := measuredTypical samples.narrowed
  narrowedSampleCount := samples.narrowed.length
  sectionTypicalWorkerSeconds := measuredTypical samples.all
  sectionSampleCount := samples.all.length
  narrowedTypicalUnitWorkerSeconds := measuredUnitTypical samples.narrowed
  sectionTypicalUnitWorkerSeconds := measuredUnitTypical samples.all
  propertiesTypicalWorkerSeconds := measuredTypical samples.properties
  propertiesSampleCount := samples.properties.length
  propertiesTypicalUnitWorkerSeconds := measuredUnitTypical samples.properties
  facetEvidence := samples.facets.map measuredFacet

end Measurement

end BeyoManager.ItemEconomics.TypicalFilters
