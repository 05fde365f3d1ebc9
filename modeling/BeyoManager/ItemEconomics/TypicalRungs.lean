import BeyoManager.ItemEconomics.Conservation
import BeyoManager.ItemEconomics.TypicalFilters

/-! # The common rung of a task's typical times

The populations that a spec offers form a ladder, from the narrowest down to the whole
section. The participating sections all stand on the first rung that each of them can
use, and on the last when there is none.
-/

namespace BeyoManager.ItemEconomics.TypicalFilters

open Transition

section Ladder

/-- The rungs that a spec offers, in order of preference. -/
def ladder (spec : TypicalFilterSpec) : List Rung :=
  if spec.isNarrowing then
    (if spec.propertiesSignature.isSome then [.properties] else []) ++
      (List.range spec.propertiesFacets.length).map .facet ++ [.category, .sectionWide]
  else [.sectionWide]

def Rung.basis : Rung → TypicalBasis
  | .properties => .itemPropertiesNarrowed
  | .facet _ => .itemFacetNarrowed
  | .category => .itemNarrowed
  | .sectionWide => .sectionWide

/-- The basis is a population narrower than the whole section. -/
def TypicalBasis.isNarrowed : TypicalBasis → Bool
  | .itemPropertiesNarrowed | .itemFacetNarrowed | .itemNarrowed => true
  | .sectionWide | .insufficientSample => false

namespace SectionTypicalEvidence

def mediansOn (e : SectionTypicalEvidence) : Rung → Option FacetEvidence
  | .properties => some ⟨e.propertiesTypicalWorkerSeconds, e.propertiesSampleCount,
      e.propertiesTypicalUnitWorkerSeconds⟩
  | .facet index => e.facetEvidence[index]?
  | .category => some ⟨e.narrowedTypicalWorkerSeconds, e.narrowedSampleCount,
      e.narrowedTypicalUnitWorkerSeconds⟩
  | .sectionWide => some ⟨e.sectionTypicalWorkerSeconds, e.sectionSampleCount,
      e.sectionTypicalUnitWorkerSeconds⟩

def sampled (e : SectionTypicalEvidence) (rung : Rung) : Bool :=
  (e.mediansOn rung).any fun medians => decide (typicalMinSampleSize ≤ medians.sampleCount)

/-- The section can use the rung: enough samples, on a narrowed rung with a positive median. -/
def usableOn (e : SectionTypicalEvidence) : Rung → Bool
  | .sectionWide => e.hasSection
  | rung => (e.mediansOn rung).any FacetEvidence.hasUsable

theorem usableOn_properties (e : SectionTypicalEvidence) :
    e.usableOn .properties = e.hasUsableProperties := rfl

theorem usableOn_facet (e : SectionTypicalEvidence) (index : ℕ) :
    e.usableOn (.facet index) = e.facetUsable index := rfl

theorem usableOn_category (e : SectionTypicalEvidence) :
    e.usableOn .category = e.hasUsableNarrowed := rfl

end SectionTypicalEvidence

/-- A typical time is read from a rung of the evidence. -/
structure SectionTypical.OnRung (e : SectionTypicalEvidence) (rung : Rung)
    (typical : SectionTypical) : Prop where
  participates : typical.participates = true
  medians : e.mediansOn rung = some ⟨typical.typicalWorkerSeconds, typical.sampleCount,
    typical.typicalUnitWorkerSeconds⟩
  basis : typical.typicalBasis = rung.basis ∨
    rung = .sectionWide ∧ e.hasSection = false ∧ typical.typicalBasis = .insufficientSample

/-- The first rung of a ladder that all sections pass the test on. -/
structure IsFirst (test : SectionTypicalEvidence → Rung → Bool) (rungs : List Rung)
    (sections : List SectionTypicalEvidence) (rung : Rung) : Prop where
  mem : rung ∈ rungs
  passes : ∀ e ∈ sections, test e rung
  skipped : ∀ r ∈ rungs.takeWhile (· ≠ rung), ∃ e ∈ sections, test e r = false

/-- The first narrowed rung that all sections can use, or the whole section if there is none. -/
def IsCommon (spec : TypicalFilterSpec) (sections : List SectionTypicalEvidence) (rung : Rung) :
    Prop :=
  IsFirst SectionTypicalEvidence.usableOn (ladder spec) sections rung ∨
    rung = .sectionWide ∧
      ∀ r ∈ ladder spec, ∃ e ∈ sections, e.usableOn r = false

def commonRung (spec : TypicalFilterSpec) (sections : List SectionTypicalEvidence) : Rung :=
  if sections = [] then .sectionWide
  else ((ladder spec).find? fun r => sections.all fun e => e.usableOn r).getD .sectionWide

theorem takeWhile_ne_of_eq_append {before after : List Rung} {rung : Rung}
    (h : rung ∉ before) : (before ++ rung :: after).takeWhile (· ≠ rung) = before := by
  induction before with
  | nil => simp
  | cons r before ih =>
    obtain ⟨hne, hnot⟩ := List.ne_and_not_mem_of_not_mem_cons h
    rw [List.cons_append, List.takeWhile_cons_of_pos (by simpa using Ne.symm hne), ih hnot]

/-- The search finds the common rung. -/
theorem isCommon_commonRung (spec : TypicalFilterSpec) {sections : List SectionTypicalEvidence}
    (hne : sections ≠ []) : IsCommon spec sections (commonRung spec sections) := by
  rw [commonRung, if_neg hne]
  cases hfind : (ladder spec).find? fun r => sections.all fun e => e.usableOn r with
  | none =>
    right
    constructor
    · rfl
    · intro r hr
      simpa using List.find?_eq_none.mp hfind r hr
  | some rung =>
    left
    obtain ⟨hpass, before, after, heq, hbefore⟩ := List.find?_eq_some_iff_append.mp hfind
    have hnot : rung ∉ before := by
      intro hmem
      simpa [hpass] using hbefore rung hmem
    constructor
    · exact List.mem_of_find?_eq_some hfind
    · simpa using hpass
    · intro r hr
      rw [heq, Option.getD_some, takeWhile_ne_of_eq_append hnot] at hr
      simpa using hbefore r hr

end Ladder

section Search

variable {E : String → SectionTypicalEvidence} {sectionIds : List String}

def taskEvidence (E : String → SectionTypicalEvidence) (sectionIds : List String) : TaskEvidence :=
  sectionIds.map fun sectionId => (sectionId, E sectionId)

theorem allSections_eq {test : SectionTypicalEvidence → Bool} {ids : List String}
    (h : ids ⊆ sectionIds) :
    allSections (taskEvidence E sectionIds) test ids = .ok (ids.all fun id => test (E id)) := by
  induction ids with
  | nil => rfl
  | cons id ids ih =>
    obtain ⟨hid, hids⟩ := List.cons_subset.mp h
    rw [allSections, taskEvidence, Dict.getItem_map_keys _ E hid]
    change (if test (E id) then allSections (taskEvidence E sectionIds) test ids else _) = _
    rw [ih hids, List.all_cons]
    cases test (E id) <;> rfl

theorem firstUniformFacet_eq {ids : List String} (h : ids ⊆ sectionIds) (indices : List ℕ) :
    firstUniformFacet (taskEvidence E sectionIds) ids indices =
      .ok (indices.find? fun index => ids.all fun id => (E id).facetUsable index) := by
  induction indices with
  | nil => rfl
  | cons index indices ih =>
    rw [firstUniformFacet, allSections_eq h, List.find?_cons]
    change (if _ then _ else _) = _
    rw [ih]
    cases ids.all fun id => (E id).facetUsable index <;> rfl

/-- The three flags of the source search the ladder. -/
theorem uniformRung_eq {spec : TypicalFilterSpec} {ids : List String} (h : ids ⊆ sectionIds) :
    uniformRung (taskEvidence E sectionIds) spec ids = .ok (commonRung spec (ids.map E)) := by
  unfold uniformRung propertiesUniform facetUniformIndex narrowedUniform commonRung
  rw [allSections_eq h, allSections_eq h, firstUniformFacet_eq h]
  by_cases hids : ids = []
  · simp [hids, bind, Except.bind, pure, Except.pure]
  have hne : ids.map E ≠ [] := List.map_eq_nil_iff.not.mpr hids
  rw [if_neg hne]
  set pass : Rung → Bool := fun r => (ids.map E).all fun e => e.usableOn r
  have hall : ∀ r, (ids.all fun id => (E id).usableOn r) = pass r := by
    intro r
    change _ = (ids.map E).all _
    rw [List.all_map]
    rfl
  have hproperties : (ids.all fun id => (E id).hasUsableProperties) = pass .properties :=
    hall .properties
  have hfacet : ∀ index, (ids.all fun id => (E id).facetUsable index) = pass (.facet index) :=
    fun index => hall (.facet index)
  have hcategory : (ids.all fun id => (E id).hasUsableNarrowed) = pass .category := hall .category
  have hlast : ([Rung.sectionWide].find? pass).getD .sectionWide = .sectionWide := by
    cases hwide : pass .sectionWide <;> simp [hwide]
  simp only [hproperties, hfacet, hcategory]
  unfold ladder
  cases hnarrowing : spec.isNarrowing with
  | false => simpa [hids, bind, Except.bind, pure, Except.pure] using hlast.symm
  | true =>
    have hfacets : ((List.range spec.propertiesFacets.length).map Rung.facet).find? pass =
        ((List.range spec.propertiesFacets.length).find? fun index =>
          pass (.facet index)).map .facet := List.find?_map
    rw [if_pos rfl, List.append_assoc, List.find?_append, List.find?_append, hfacets]
    have hrest : ([Rung.category, .sectionWide].find? pass).getD .sectionWide =
        if pass .category then .category else .sectionWide := by
      rw [List.find?_cons]
      cases pass .category
      · exact hlast
      · rfl
    have htop : (if spec.propertiesSignature.isSome then [Rung.properties] else []).find? pass =
        if spec.propertiesSignature.isSome && pass .properties then some .properties else none := by
      cases spec.propertiesSignature.isSome <;> cases hp : pass .properties <;> simp [hp]
    rw [htop]
    cases hsigned : spec.propertiesSignature.isSome <;> cases hp : pass .properties <;>
      cases (List.range spec.propertiesFacets.length).find? fun index => pass (.facet index) <;>
      simp [hids, hrest, bind, Except.bind, pure, Except.pure]

end Search

section Values

/-- A value from a narrowed rung is positive, and without enough samples there is none. -/
structure SectionTypical.Sound (typical : SectionTypical) : Prop where
  positive : typical.typicalBasis.isNarrowed → ∃ t, typical.typicalWorkerSeconds = some t ∧ 0 < t
  insufficient : typical.typicalBasis = .insufficientSample → typical.typicalWorkerSeconds = none

def SectionTypicalEvidence.Measured (e : SectionTypicalEvidence) : Prop :=
  e.hasSection = false →
    e.sectionTypicalWorkerSeconds = none ∧ e.sectionTypicalUnitWorkerSeconds = none

instance : Nonempty SectionTypical := ⟨selectInsufficient (zeroEvidence "") false 0⟩

variable {e : SectionTypicalEvidence} {spec : TypicalFilterSpec} {participates : Bool}

theorem exists_pos_of_usable {seconds : Option ℤ} {count : ℤ} (h : usable seconds count) :
    ∃ t, seconds = some t ∧ 0 < t := by
  unfold usable at h
  cases seconds with
  | none => simp at h
  | some t => exact ⟨t, rfl, by simpa using (Bool.and_eq_true_iff.mp h).2⟩

theorem sound_selectProperties (h : e.hasUsableProperties) :
    (selectProperties e participates).Sound where
  positive := fun _ => exists_pos_of_usable h
  insufficient := by simp [selectProperties]

theorem sound_selectFacet {facet : FacetEvidence} (h : facet.hasUsable) :
    (selectFacet e participates facet).Sound where
  positive := fun _ => exists_pos_of_usable h
  insufficient := by simp [selectFacet]

theorem sound_selectNarrowed (h : e.hasUsableNarrowed) :
    (selectNarrowed e participates).Sound where
  positive := fun _ => exists_pos_of_usable h
  insufficient := by simp [selectNarrowed]

theorem sound_resolveSectionWide : (resolveSectionWide e).Sound := by
  unfold resolveSectionWide
  split
  · constructor <;> simp [selectSection, TypicalBasis.isNarrowed]
  · constructor <;> simp [selectInsufficient, TypicalBasis.isNarrowed]

theorem hasUsable_of_firstUsableFacet {facet : FacetEvidence}
    (h : firstUsableFacet e spec = some facet) : facet.hasUsable := by
  obtain ⟨index, -, hindex⟩ := List.exists_of_findSome?_eq_some h
  exact (Option.filter_eq_some_iff.mp hindex).2

theorem sound_broadenToSection :
    (resolveSectionTypical e spec .broadenToSection).Sound := by
  unfold resolveSectionTypical
  split
  · exact sound_resolveSectionWide
  · change (broadenToSection e spec).Sound
    unfold broadenToSection
    split
    · rename_i h
      exact sound_selectProperties (Bool.and_eq_true_iff.mp h).2
    · split
      · rename_i hfacet
        exact sound_selectFacet (hasUsable_of_firstUsableFacet hfacet)
      · split
        · rename_i h
          exact sound_selectNarrowed h
        · exact sound_resolveSectionWide

/-- A participating section stands on the common rung, if the rung is usable for it or is the
whole section. -/
theorem participantTypical_spec {rung : Rung} (hmeasured : e.Measured)
    (h : rung = .sectionWide ∨ e.usableOn rung) :
    ∃ typical, participantTypical e rung = .ok typical ∧ typical.OnRung e rung ∧ typical.Sound := by
  cases rung with
  | properties =>
    have husable : e.hasUsableProperties := by simpa [e.usableOn_properties] using h
    exact ⟨_, rfl, ⟨rfl, rfl, .inl rfl⟩, sound_selectProperties husable⟩
  | facet index =>
    have husable : e.facetUsable index := by simpa [e.usableOn_facet] using h
    obtain ⟨facet, hfacet, hgood⟩ := (Option.any_eq_true _ _).mp husable
    refine ⟨selectFacet e true facet, ?_, ⟨rfl, hfacet, .inl rfl⟩, sound_selectFacet hgood⟩
    simp only [participantTypical, hfacet]
  | category =>
    have husable : e.hasUsableNarrowed := by simpa [e.usableOn_category] using h
    exact ⟨_, rfl, ⟨rfl, rfl, .inl rfl⟩, sound_selectNarrowed husable⟩
  | sectionWide =>
    refine ⟨_, rfl, ?_, ?_⟩
    · cases hsection : e.hasSection with
      | true => exact ⟨rfl, by simp [selectSection, SectionTypicalEvidence.mediansOn],
          .inl rfl⟩
      | false =>
        obtain ⟨hseconds, hunit⟩ := hmeasured hsection
        exact ⟨rfl, by simp [selectSection, SectionTypicalEvidence.mediansOn, hunit],
          .inr ⟨rfl, hsection, rfl⟩⟩
    · cases hsection : e.hasSection with
      | true => constructor <;> simp [TypicalBasis.isNarrowed]
      | false =>
        constructor
        · simp [TypicalBasis.isNarrowed]
        · intro _
          exact (hmeasured hsection).1

end Values

section Division

/-- The text of a `typical_basis`. -/
def TypicalBasis.value : TypicalBasis → String
  | .itemPropertiesNarrowed => "item_properties_narrowed"
  | .itemFacetNarrowed => "item_facet_narrowed"
  | .itemNarrowed => "item_narrowed"
  | .sectionWide => "section_wide"
  | .insufficientSample => "insufficient_sample"

/-- What the division of a budget reads of a `SelectedTypical`. -/
def SectionTypical.forDivision (typical : SectionTypical) : SelectedTypical where
  typicalWorkerSeconds := typical.typicalWorkerSeconds
  typicalBasis := typical.typicalBasis.value
  sampleCount := typical.sampleCount

/-- `selection.selected`, as the division reads it. -/
def TaskTypicalSelection.typicals (selection : TaskTypicalSelection) (sectionId : String) :
    Option SelectedTypical :=
  (selection.selected.find? fun entry => entry.1 = sectionId).map fun entry => entry.2.forDivision

theorem sectionWeight_of_narrowed {selection : TaskTypicalSelection}
    {entry : String × SectionTypical} {sectionId : String}
    (hentry : selection.selected.find? (fun entry => entry.1 = sectionId) = some entry)
    (hsound : entry.2.Sound) (hnarrowed : entry.2.typicalBasis.isNarrowed) (fallback : ℚ) :
    ∃ t : ℤ, entry.2.typicalWorkerSeconds = some t ∧
      sectionWeight selection.typicals fallback sectionId = t := by
  obtain ⟨t, ht, hpos⟩ := hsound.positive hnarrowed
  have hvalue : usableValue (some t) = some (t : ℚ) := by simp [usableValue, hpos]
  refine ⟨t, ht, ?_⟩
  rw [sectionWeight, TaskTypicalSelection.typicals, hentry]
  simp [SectionTypical.forDivision, ht, hvalue]

end Division

section Task

/-- The evidence of a section, empty for a section without a row. -/
def evidenceOf (evidenceBySection : String → Option SectionTypicalEvidence) (sectionId : String) :
    SectionTypicalEvidence :=
  (evidenceBySection sectionId).getD (zeroEvidence sectionId)

/-- The evidence that the query measures on the samples of each section. -/
def measuredEvidence (samples : String → Option SectionSamples) (sectionId : String) :
    Option SectionTypicalEvidence :=
  (samples sectionId).map (SectionSamples.evidence sectionId)

theorem measured_evidenceOf (samples : String → Option SectionSamples) (sectionId : String) :
    (evidenceOf (measuredEvidence samples) sectionId).Measured := by
  unfold evidenceOf measuredEvidence
  cases samples sectionId with
  | none => exact fun _ => ⟨rfl, rfl⟩
  | some populations =>
    intro h
    have hfew : ¬ typicalMinSampleSize ≤ (populations.all.length : ℤ) := of_decide_eq_false h
    exact ⟨if_neg hfew, if_neg hfew⟩

theorem facetName_commonRung (spec : TypicalFilterSpec) (sections : List SectionTypicalEvidence) :
    ∃ name, facetName spec (commonRung spec sections) = .ok name := by
  cases hrung : commonRung spec sections with
  | properties => exact ⟨none, rfl⟩
  | category => exact ⟨none, rfl⟩
  | sectionWide => exact ⟨none, rfl⟩
  | facet index =>
    have hmem : Rung.facet index ∈ ladder spec := by
      by_cases hne : sections = []
      · simp [commonRung, hne] at hrung
      · rcases hrung ▸ isCommon_commonRung spec hne with hfirst | ⟨hwide, -⟩
        · exact hfirst.mem
        · simp at hwide
    have hlt : index < spec.propertiesFacets.length := by
      unfold ladder at hmem
      split at hmem
      · simpa using hmem
      · simp at hmem
    simp [facetName, List.getElem?_eq_getElem hlt]

/-- The section of a task is resolved: on the common rung if it participates. -/
theorem sectionTypical_spec {E : String → SectionTypicalEvidence} (spec : TypicalFilterSpec)
    (participatingSectionIds : List String) {sectionIds : List String}
    (hmeasured : ∀ id, (E id).Measured)
    {sectionId : String} (hid : sectionId ∈ sectionIds) :
    ∃ typical, sectionTypical (taskEvidence E sectionIds) spec participatingSectionIds
        (commonRung spec (participatingSectionIds.map E)) sectionId = .ok typical ∧
      typical.Sound ∧ (sectionId ∈ participatingSectionIds →
        typical.OnRung (E sectionId) (commonRung spec (participatingSectionIds.map E))) := by
  unfold sectionTypical
  rw [taskEvidence, Dict.getItem_map_keys _ E hid]
  by_cases hin : sectionId ∈ participatingSectionIds
  · have hmem : E sectionId ∈ participatingSectionIds.map E := List.mem_map_of_mem hin
    have husable : commonRung spec (participatingSectionIds.map E) = .sectionWide ∨
        (E sectionId).usableOn (commonRung spec (participatingSectionIds.map E)) := by
      rcases isCommon_commonRung spec (List.ne_nil_of_mem hmem) with hfirst | ⟨hwide, -⟩
      · exact .inr (hfirst.passes _ hmem)
      · exact .inl hwide
    obtain ⟨typical, hok, hon, hsound⟩ := participantTypical_spec (hmeasured sectionId) husable
    refine ⟨{ typical with workingSectionId := sectionId }, ?_, ⟨hsound.1, hsound.2⟩,
      fun _ => ⟨hon.1, hon.2, hon.3⟩⟩
    simp [hin, hok, bind, Except.bind, pure, Except.pure]
  · have hsound : (resolveSectionTypical (E sectionId) spec .broadenToSection).Sound :=
      sound_broadenToSection
    refine ⟨{ resolveSectionTypical (E sectionId) spec .broadenToSection with
      participates := false }, ?_, ⟨hsound.1, hsound.2⟩, fun h => absurd h hin⟩
    simp [hin, bind, Except.bind, pure, Except.pure]

/-- All participating sections stand on the common rung. Every value from a narrowed rung is
positive, and a section without enough samples has none. -/
theorem participants_on_common_rung (samples : String → Option SectionSamples)
    (spec : Option TypicalFilterSpec) (participatingSectionIds sectionIds : List String)
    (h : participatingSectionIds ⊆ sectionIds) :
    ∃ selection, reconcileTaskTypicals (measuredEvidence samples) spec participatingSectionIds
        sectionIds = .ok selection ∧
      selection.selected.map Prod.fst = sectionIds ∧
      (∃ rung, selection.taskTypicalBasis = rung.taskBasis ∧
        (participatingSectionIds ≠ [] → IsCommon (spec.getD .empty)
          (participatingSectionIds.map (evidenceOf (measuredEvidence samples))) rung) ∧
        ∀ p ∈ selection.selected, p.1 ∈ participatingSectionIds →
          p.2.OnRung (evidenceOf (measuredEvidence samples) p.1) rung) ∧
      (∀ p ∈ selection.selected, p.2.typicalBasis.isNarrowed →
        ∃ t, p.2.typicalWorkerSeconds = some t ∧ 0 < t) ∧
      ∀ p ∈ selection.selected, p.2.typicalBasis = .insufficientSample →
        p.2.typicalWorkerSeconds = none := by
  set E := evidenceOf (measuredEvidence samples)
  set rung := commonRung (spec.getD .empty) (participatingSectionIds.map E)
  have hrung : uniformRung (taskEvidence E sectionIds) (spec.getD .empty)
      participatingSectionIds = .ok rung := uniformRung_eq h
  obtain ⟨name, hname⟩ := facetName_commonRung (spec.getD .empty) (participatingSectionIds.map E)
  have hsections : ∀ sectionId ∈ sectionIds, ∃ entry : String × SectionTypical,
      (sectionTypical (taskEvidence E sectionIds) (spec.getD .empty) participatingSectionIds rung
        sectionId >>= fun typical => pure (sectionId, typical)) = .ok entry ∧
      (entry.1 = sectionId ∧ entry.2.Sound ∧
        (entry.1 ∈ participatingSectionIds → entry.2.OnRung (E entry.1) rung)) := by
    intro sectionId hid
    obtain ⟨typical, hok, hsound, hon⟩ := sectionTypical_spec (spec.getD .empty)
      participatingSectionIds (measured_evidenceOf samples) hid
    exact ⟨(sectionId, typical), bind_eq_ok.mpr ⟨typical, hok, rfl⟩, rfl, hsound, hon⟩
  obtain ⟨entry, hentries, hspec⟩ := mapM_exists hsections
  have hmem : ∀ p ∈ sectionIds.map entry, p.2.Sound ∧
      (p.1 ∈ participatingSectionIds → p.2.OnRung (E p.1) rung) := by
    intro p hp
    obtain ⟨sectionId, hid, rfl⟩ := List.mem_map.mp hp
    exact (hspec sectionId hid).2
  have hok : ∃ selection, reconcileTaskTypicals (measuredEvidence samples) spec
      participatingSectionIds sectionIds = .ok selection ∧
        selection.selected = sectionIds.map entry ∧ selection.taskTypicalBasis =
          rung.taskBasis := by
    unfold reconcileTaskTypicals
    exact ⟨_, bind_eq_ok.mpr ⟨rung, hrung, bind_eq_ok.mpr ⟨_, hentries, bind_eq_ok.mpr
      ⟨name, hname, rfl⟩⟩⟩, rfl, rfl⟩
  obtain ⟨selection, hreconcile, hselected, hbasis⟩ := hok
  rw [← hselected] at hmem
  refine ⟨selection, hreconcile, ?_, ⟨rung, hbasis, ?_, fun p hp => (hmem p hp).2⟩,
    fun p hp => (hmem p hp).1.positive, fun p hp => (hmem p hp).1.insufficient⟩
  · rw [hselected, List.map_map]
    calc sectionIds.map (Prod.fst ∘ entry) = sectionIds.map id :=
          List.map_congr_left fun sectionId hid => (hspec sectionId hid).1
      _ = sectionIds := List.map_id _
  · intro hne
    exact isCommon_commonRung _ (List.map_eq_nil_iff.not.mpr hne)

theorem participants_on_common_rung_two :
    let samples : String → Option SectionSamples := fun sectionId =>
      if sectionId = "quality" then none
      else some { all := List.replicate 5 ⟨60, none⟩, narrowed := List.replicate 5 ⟨40, some 2⟩ }
    let spec := (TypicalFilterSpec.postInit { itemCategoryIds := some {"chair"} }).toOption
    let participating := ["sewing", "packing"]
    let sections := ["sewing", "packing", "quality"]
    participating ⊆ sections ∧
      ∃ selection, reconcileTaskTypicals (measuredEvidence samples) spec participating sections =
          .ok selection ∧
        selection.selected.map Prod.fst = sections ∧
        (∃ rung, selection.taskTypicalBasis = rung.taskBasis ∧
          (participating ≠ [] → IsCommon (spec.getD .empty)
            (participating.map (evidenceOf (measuredEvidence samples))) rung) ∧
          ∀ p ∈ selection.selected, p.1 ∈ participating →
            p.2.OnRung (evidenceOf (measuredEvidence samples) p.1) rung) ∧
        (∀ p ∈ selection.selected, p.2.typicalBasis.isNarrowed →
          ∃ t, p.2.typicalWorkerSeconds = some t ∧ 0 < t) ∧
        ∀ p ∈ selection.selected, p.2.typicalBasis = .insufficientSample →
          p.2.typicalWorkerSeconds = none := by
  intro samples spec participating sections
  have h : participating ⊆ sections := by decide
  exact ⟨h, participants_on_common_rung samples spec participating sections h⟩

/-- All participating sections stand on the first rung that each of them passes a test on. -/
def StandOnFirst (test : SectionTypicalEvidence → Rung → Bool)
    (samples : String → Option SectionSamples) (spec : Option TypicalFilterSpec)
    (participatingSectionIds sectionIds : List String) : Prop :=
  ∃ selection rung, reconcileTaskTypicals (measuredEvidence samples) spec participatingSectionIds
      sectionIds = .ok selection ∧
    IsFirst test (ladder (spec.getD .empty))
      (participatingSectionIds.map (evidenceOf (measuredEvidence samples))) rung ∧
    ∀ p ∈ selection.selected, p.1 ∈ participatingSectionIds →
      p.2.OnRung (evidenceOf (measuredEvidence samples) p.1) rung

/-- A rung with enough samples whose median is zero is passed over, and a section without any
samples is left on the whole section, which it cannot use. -/
theorem enough_samples_not_used :
    ¬ StandOnFirst SectionTypicalEvidence.sampled
        (fun _ => some {
          all := List.replicate 5 ⟨60, none⟩, narrowed := List.replicate 5 ⟨0, none⟩ })
        (TypicalFilterSpec.postInit { itemCategoryIds := some {"chair"} }).toOption
        ["sewing"] ["sewing"] ∧
      ¬ StandOnFirst SectionTypicalEvidence.usableOn (fun _ => none) none
        ["sewing"] ["sewing"] := by
  constructor
  · rintro ⟨selection, rung, hok, hfirst, hon⟩
    have hany : (reconcileTaskTypicals (measuredEvidence fun _ => some {
        all := List.replicate 5 ⟨60, none⟩, narrowed := List.replicate 5 ⟨0, none⟩ })
        (TypicalFilterSpec.postInit { itemCategoryIds := some {"chair"} }).toOption
        ["sewing"] ["sewing"]).toOption.any (fun selection =>
          selection.selected.any fun p => decide (p.1 = "sewing") &&
            decide (p.2.typicalBasis = .sectionWide)) = true := by decide +kernel
    rw [hok] at hany
    obtain ⟨p, hp, hbasis⟩ := List.any_eq_true.mp hany
    simp only [Bool.and_eq_true, decide_eq_true_eq] at hbasis
    have hwide : rung = .sectionWide := by
      rcases (hon p hp (by simp [hbasis.1])).basis with h | ⟨h, -⟩
      · cases rung <;> simp_all [Rung.basis]
      · exact h
    subst hwide
    obtain ⟨e, he, hfew⟩ := hfirst.skipped .category (by decide +kernel)
    obtain rfl := List.mem_singleton.mp he
    exact absurd hfew (by decide +kernel)
  · rintro ⟨selection, rung, hok, hfirst, hon⟩
    have hwide : rung = .sectionWide := List.mem_singleton.mp hfirst.mem
    exact absurd (hfirst.passes _ (List.mem_singleton.mpr rfl)) (by subst hwide; decide +kernel)

end Task

end BeyoManager.ItemEconomics.TypicalFilters
