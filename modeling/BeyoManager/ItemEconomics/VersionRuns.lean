import BeyoManager.ItemEconomics.Run

/-! # Version chains over runs

In every state of a run the versions of each chain are disjoint and leave no gap, if and only if
every deletion of the run takes the earliest version of its chain away.
-/

namespace BeyoManager.ItemEconomics

open Relational Transition

/-- What holds of the versions of one chain that are not deleted: their ranges are not empty and
disjoint, at most one is open, and every day from the earliest of them on has exactly one. -/
structure ChainOfVersions {κ α : Type} (versions : List (Version κ α)) : Prop where
  nonempty : ∀ v ∈ versions, ∃ d, isApplicable v d
  disjoint : versions.Pairwise fun v w => ∀ d, isApplicable v d → ¬ isApplicable w d
  open_unique : versions.Pairwise fun v w => ¬ (v.effectiveTo = none ∧ w.effectiveTo = none)
  covered : ∀ v ∈ versions, ∀ d, (∀ f ∈ v.effectiveFrom, f ≤ d) →
    (versions.filter fun w => isApplicable w d).length = 1

def loadedGroups (db : Db) (workspaceId : String) : List ProductionCostGroup :=
  db.groups.filter fun g => g.workspaceId == workspaceId && !g.isDeleted

def loadedBasisVersions (db : Db) (workspaceId : String) : List ProductionCostBasisVersion :=
  db.basisVersions.filter fun v => v.chain.1 == workspaceId && !v.isDeleted

def loadedModelVersions (db : Db) (workspaceId : String) : List CostModelVersion :=
  db.modelVersions.filter fun v => v.chain == workspaceId && !v.isDeleted

/-- The versions of every chain are in order, and a selection does not depend on the order in which
its rows are read. -/
structure WellVersioned (db : Db) : Prop where
  modelsKeyed : Keyed Version.clientId db.modelVersions
  basesKeyed : Keyed Version.clientId db.basisVersions
  models : ∀ workspaceId, ChainOfVersions (liveChain workspaceId db.modelVersions)
  bases : ∀ chain, ChainOfVersions (liveChain chain db.basisVersions)
  selection : ∀ workspaceId category day groups bases models,
    (loadedGroups db workspaceId).Perm groups → (loadedBasisVersions db workspaceId).Perm bases →
    (loadedModelVersions db workspaceId).Perm models →
    resolveEconomicsSelection category groups bases models day =
      resolveEconomicsSelection category (loadedGroups db workspaceId)
        (loadedBasisVersions db workspaceId) (loadedModelVersions db workspaceId) day

section Chains

variable {κ α : Type} [DecidableEq κ] {versions : List (Version κ α)} {k : κ}

/-- The spans of a chain and its versions. -/
theorem chainOfVersions_iff : ChainOfVersions (liveChain k versions) ↔
    Span.Chain ((liveChain k versions).map Version.span) := by
  have hcovers : ∀ v ∈ liveChain k versions, ∀ d, isApplicable v d ↔ v.span.Covers d :=
    fun v hv d => isApplicable_iff.trans (and_iff_right (mem_liveChain.mp hv).2.2)
  constructor
  · intro h
    refine ⟨?_, ?_, ?_⟩
    · simp only [List.forall_mem_map]
      intro v hv
      obtain ⟨d, hd⟩ := h.nonempty v hv
      exact ⟨d, (hcovers v hv d).mp hd⟩
    · rw [List.pairwise_map]
      refine h.disjoint.imp_of_mem fun hv hw hd d hvd hwd => ?_
      exact hd d ((hcovers _ hv d).mpr hvd) ((hcovers _ hw d).mpr hwd)
    · simp only [List.forall_mem_map]
      intro v hv d hd
      have hone := h.covered v hv d hd
      obtain ⟨w, hw⟩ := List.exists_mem_of_length_pos (by rw [hone]; exact one_pos)
      obtain ⟨hw, hwd⟩ := List.mem_filter.mp hw
      exact ⟨w.span, List.mem_map_of_mem hw, (hcovers w hw d).mp hwd⟩
  · intro h
    have hle : ∀ d, ((liveChain k versions).filter fun w => isApplicable w d).length ≤ 1 := by
      intro d
      refine le_of_eq_of_le (congrArg List.length ?_) (length_applicable_le (d := d) h)
      rw [liveChain, List.filter_filter]
      refine List.filter_congr fun v _ => ?_
      rw [Bool.eq_iff_iff]
      simp only [Bool.and_eq_true, isApplicable_iff, Bool.not_eq_true']
      constructor
      · rintro ⟨hc, hk, -⟩
        exact ⟨hk, hc⟩
      · rintro ⟨hk, hc⟩
        exact ⟨hc, hk, hc.1⟩
    constructor
    · intro v hv
      obtain ⟨d, hd⟩ := h.nonempty _ (List.mem_map_of_mem hv)
      exact ⟨d, (hcovers v hv d).mpr hd⟩
    · refine (List.pairwise_map.mp h.disjoint).imp_of_mem fun hv hw hd d hvd hwd => ?_
      exact hd d ((hcovers _ hv d).mp hvd) ((hcovers _ hw d).mp hwd)
    · exact List.pairwise_map.mp h.open_unique
    · intro v hv d hd
      obtain ⟨s, hs, hsd⟩ := h.covered _ (List.mem_map_of_mem hv) d hd
      obtain ⟨w, hw, rfl⟩ := List.mem_map.mp hs
      refine le_antisymm (hle d) (List.length_pos_of_mem (List.mem_filter.mpr ⟨hw, ?_⟩))
      exact (hcovers w hw d).mpr hsd

end Chains

/-- Well-versioned tables are tables of chains. -/
theorem wellVersioned_iff {db : Db} :
    WellVersioned db ↔ Chained db.modelVersions ∧ Chained db.basisVersions := by
  constructor
  · intro h
    exact ⟨⟨h.modelsKeyed, fun k => chainOfVersions_iff.mp (h.models k)⟩,
      ⟨h.basesKeyed, fun k => chainOfVersions_iff.mp (h.bases k)⟩⟩
  · rintro ⟨hmodels, hbases⟩
    refine ⟨hmodels.keyed, hbases.keyed, fun k => chainOfVersions_iff.mpr (hmodels.chain k),
      fun k => chainOfVersions_iff.mpr (hbases.chain k), ?_⟩
    intro workspaceId category day groups bases models hgroups hbasesPerm hmodelsPerm
    refine (resolveEconomicsSelection_perm hgroups hbasesPerm hmodelsPerm ?_ ?_).symm
    · intro group _
      refine le_trans (List.Sublist.length_le ?_)
        (length_applicable_le (d := day) (hbases.chain (workspaceId, group.clientId)))
      rw [loadedBasisVersions, List.filter_filter]
      refine List.monotone_filter_right _ fun v hv => ?_
      simp only [Bool.and_eq_true, beq_iff_eq, Bool.not_eq_true'] at hv ⊢
      exact ⟨Prod.ext hv.2.1 hv.1.1, hv.1.2⟩
    · refine le_trans (List.Sublist.length_le ?_)
        (length_applicable_le (d := day) (hmodels.chain workspaceId))
      rw [loadedModelVersions, List.filter_filter]
      refine List.monotone_filter_right _ fun v hv => ?_
      simp only [Bool.and_eq_true, beq_iff_eq, Bool.not_eq_true'] at hv ⊢
      exact ⟨hv.2.1, hv.1⟩

/-- A deletion takes the earliest version of its chain away. -/
def DeletesEarliest (s : State) (call : Call) : Prop :=
  match call.command with
  | .deleteCostModelVersion workspaceId clientId => ∀ v ∈ s.db.modelVersions.find? fun v =>
      v.chain == workspaceId && v.clientId == clientId && !v.isDeleted,
        IsEarliest v s.db.modelVersions
  | .deleteProductionCostBasisVersion workspaceId clientId =>
    ∀ v ∈ s.db.basisVersions.find? fun v => v.chain.1 == workspaceId && v.clientId == clientId &&
      !v.isDeleted, IsEarliest v s.db.basisVersions
  | _ => True

section Steps

variable {today : Day} {db db' : Db}

theorem createCostModelVersion_chained {workspaceId newId : String}
    {request : CostModelVersionCreateRequest} (h : Chained db.modelVersions)
    (hok : createCostModelVersion today workspaceId newId request db = .ok db') :
    Chained db'.modelVersions ∧ db'.basisVersions = db.basisVersions := by
  obtain ⟨-, hok⟩ := throwIf_bind_eq_ok.mp hok
  obtain ⟨-, hok⟩ := throwIf_bind_eq_ok.mp hok
  obtain ⟨_, -, hok⟩ := bind_eq_ok.mp hok
  obtain ⟨_, hadmitted, hok⟩ := bind_eq_ok.mp hok
  obtain ⟨versions, hversions, hok⟩ := bind_eq_ok.mp hok
  cases hok
  exact ⟨h.insertVersion (admissionError_eq_ok hadmitted) hversions, rfl⟩

theorem createProductionCostBasisVersion_chained {workspaceId newId : String}
    {request : ProductionCostBasisVersionCreateRequest} (h : Chained db.basisVersions)
    (hok : createProductionCostBasisVersion today workspaceId newId request db = .ok db') :
    Chained db'.basisVersions ∧ db'.modelVersions = db.modelVersions := by
  obtain ⟨group, -, hok⟩ := bind_eq_ok.mp hok
  obtain ⟨_, hadmitted, hok⟩ := bind_eq_ok.mp hok
  obtain ⟨rate, -, hok⟩ := bind_eq_ok.mp hok
  obtain ⟨-, hok⟩ := throwIf_bind_eq_ok.mp hok
  obtain ⟨versions, hversions, hok⟩ := bind_eq_ok.mp hok
  cases hok
  exact ⟨h.insertVersion (admissionError_eq_ok hadmitted) hversions, rfl⟩

theorem getVersion_eq_ok {κ α : Type} [DecidableEq κ] {notFound clientId : String}
    {inWorkspace : κ → Bool} {versions : List (Version κ α)} {v : Version κ α}
    (h : getVersion notFound inWorkspace clientId versions = .ok v) :
    (versions.find? fun v => inWorkspace v.chain && v.clientId == clientId && !v.isDeleted) =
      some v ∧
      v ∈ liveChain v.chain versions := by
  have hfind := getOr_eq_ok.mp h
  have hv := List.find?_some hfind
  simp only [Bool.and_eq_true, Bool.not_eq_true'] at hv
  exact ⟨hfind, mem_liveChain.mpr ⟨List.mem_of_find?_eq_some hfind, rfl, hv.2⟩⟩

theorem deleteCostModelVersion_chained_iff {workspaceId clientId : String}
    (h : Chained db.modelVersions)
    (hok : deleteCostModelVersion workspaceId clientId db = .ok db') :
    (Chained db'.modelVersions ↔ DeletesEarliest ⟨today, db⟩
      ⟨0, .deleteCostModelVersion workspaceId clientId⟩) ∧
        db'.basisVersions = db.basisVersions := by
  obtain ⟨v, hv, hok⟩ := bind_eq_ok.mp hok
  obtain ⟨-, hok⟩ := throwIf_bind_eq_ok.mp hok
  cases hok
  obtain ⟨hfind, hmem⟩ := getVersion_eq_ok hv
  refine ⟨(h.markDeleted_iff hmem).trans ?_, rfl⟩
  rw [DeletesEarliest]
  dsimp only
  rw [hfind]
  simp

theorem deleteProductionCostBasisVersion_chained_iff {workspaceId clientId : String}
    (h : Chained db.basisVersions)
    (hok : deleteProductionCostBasisVersion workspaceId clientId db = .ok db') :
    (Chained db'.basisVersions ↔ DeletesEarliest ⟨today, db⟩
      ⟨0, .deleteProductionCostBasisVersion workspaceId clientId⟩) ∧
        db'.modelVersions = db.modelVersions := by
  obtain ⟨v, hv, hok⟩ := bind_eq_ok.mp hok
  obtain ⟨-, hok⟩ := throwIf_bind_eq_ok.mp hok
  cases hok
  obtain ⟨hfind, hmem⟩ := getVersion_eq_ok hv
  refine ⟨(h.markDeleted_iff hmem).trans ?_, rfl⟩
  rw [DeletesEarliest]
  dsimp only
  rw [hfind]
  simp

/-- The other commands write no version. -/
theorem execute_versions {command : Command} (hok : execute today db command = .ok db')
    (hmodel : ∀ workspaceId newId request,
      command ≠ .createCostModelVersion workspaceId newId request)
    (hmodel' : ∀ workspaceId clientId, command ≠ .deleteCostModelVersion workspaceId clientId)
    (hbasis : ∀ workspaceId newId request,
      command ≠ .createProductionCostBasisVersion workspaceId newId request)
    (hbasis' : ∀ workspaceId clientId,
      command ≠ .deleteProductionCostBasisVersion workspaceId clientId) :
    db'.modelVersions = db.modelVersions ∧ db'.basisVersions = db.basisVersions := by
  cases command with
  | createCostModelVersion => exact absurd rfl (hmodel _ _ _)
  | deleteCostModelVersion => exact absurd rfl (hmodel' _ _)
  | createProductionCostBasisVersion => exact absurd rfl (hbasis _ _ _)
  | deleteProductionCostBasisVersion => exact absurd rfl (hbasis' _ _)
  | setItemValuation workspaceId itemId newId price cost currency =>
    obtain ⟨-, hok⟩ := throwIf_bind_eq_ok.mp hok
    obtain ⟨item, -, hok⟩ := bind_eq_ok.mp hok
    obtain ⟨valuations, -, hok⟩ := bind_eq_ok.mp hok
    obtain ⟨_, -, hok⟩ := bind_eq_ok.mp hok
    cases hok
    exact ⟨rfl, rfl⟩
  | writeItemValuation workspaceId itemId newId price cost currency =>
    obtain ⟨valuations, -, hok⟩ := bind_eq_ok.mp hok
    cases hok
    exact ⟨rfl, rfl⟩
  | deleteItemValuation workspaceId valuationId itemId =>
    obtain ⟨valuation, -, hok⟩ := bind_eq_ok.mp hok
    obtain ⟨-, hok⟩ := throwIf_bind_eq_ok.mp hok
    obtain ⟨-, hok⟩ := throwIf_bind_eq_ok.mp hok
    cases hok
    exact ⟨rfl, rfl⟩
  | commitItemCostEvaluation => exact (commit_versions hok).symm
  | createItemCostProjection =>
    obtain ⟨source, -, hok⟩ := bind_eq_ok.mp hok
    exact (commit_versions hok).symm
  | deleteItemCostProjection =>
    obtain ⟨projection, -, hok⟩ := bind_eq_ok.mp hok
    cases hok
    exact ⟨rfl, rfl⟩
  | promoteItemCostProjection =>
    obtain ⟨projection, -, hok⟩ := bind_eq_ok.mp hok
    exact (commit_versions hok).symm
  | autoCommitItemCostEvaluation =>
    obtain ⟨item, -, hok⟩ := bind_eq_ok.mp hok
    dsimp only at hok
    split at hok
    · exact (commit_versions hok).symm
    · cases hok
      exact ⟨rfl, rfl⟩
  | writeElsewhere => cases hok; exact ⟨rfl, rfl⟩

end Steps

/-- A command keeps the chains if and only if it deletes no version but the earliest of a chain. -/
theorem step_wellVersioned_iff {s s' : State} {call : Call} (h : WellVersioned s.db)
    (hok : step s call = .ok s') : WellVersioned s'.db ↔ DeletesEarliest s call := by
  have hok := step_eq_ok hok
  obtain ⟨hmodels, hbases⟩ := wellVersioned_iff.mp h
  obtain ⟨elapsed, command⟩ := call
  have hother : s'.db.modelVersions = s.db.modelVersions ∧
      s'.db.basisVersions = s.db.basisVersions → WellVersioned s'.db := by
    rintro ⟨hm, hb⟩
    exact wellVersioned_iff.mpr ⟨hm ▸ hmodels, hb ▸ hbases⟩
  cases command with
  | createCostModelVersion workspaceId newId request =>
    obtain ⟨hchained, hsame⟩ := createCostModelVersion_chained hmodels hok
    exact iff_of_true (wellVersioned_iff.mpr ⟨hchained, hsame ▸ hbases⟩) trivial
  | createProductionCostBasisVersion workspaceId newId request =>
    obtain ⟨hchained, hsame⟩ := createProductionCostBasisVersion_chained hbases hok
    exact iff_of_true (wellVersioned_iff.mpr ⟨hsame ▸ hmodels, hchained⟩) trivial
  | deleteCostModelVersion workspaceId clientId =>
    obtain ⟨hiff, hsame⟩ := deleteCostModelVersion_chained_iff hmodels hok
    rw [wellVersioned_iff, hsame, and_iff_left hbases]
    exact hiff
  | deleteProductionCostBasisVersion workspaceId clientId =>
    obtain ⟨hiff, hsame⟩ :=
      deleteProductionCostBasisVersion_chained_iff hbases hok
    rw [wellVersioned_iff, hsame, and_iff_right hmodels]
    exact hiff
  | _ =>
    refine iff_of_true (hother (execute_versions hok ?_ ?_ ?_ ?_)) trivial <;>
      (intros; exact Command.noConfusion)

/-- The versions are in order in every state of a run if and only if each deletion of the run takes
the earliest version of its chain away. -/
theorem versions_in_order_iff {s : State} (h : WellVersioned s.db) (calls : List Call) :
    (∀ before after, calls = before ++ after → WellVersioned (run step s before).db) ↔
      Meets step DeletesEarliest s calls :=
  forall_reached_iff (fun s => WellVersioned s.db)
    (fun _ _ _ hs hok => step_wellVersioned_iff hs hok)
    h

def emptyDb : Db := ⟨[], [], [], [], [], [], [], [], [], []⟩

theorem wellVersioned_emptyDb : WellVersioned emptyDb :=
  wellVersioned_iff.mpr ⟨⟨keyed_nil, fun _ => Span.chain_nil⟩, keyed_nil, fun _ => Span.chain_nil⟩

def createModel (newId : String) (effectiveFrom : Day) : Call :=
  ⟨0, .createCostModelVersion "w" newId ⟨some effectiveFrom, .euro, []⟩⟩

def deleteModel (clientId : String) : Call := ⟨0, .deleteCostModelVersion "w" clientId⟩

theorem versions_in_order_iff_three :
    let calls := [createModel "a" 1, createModel "b" 5, deleteModel "a"]
    (∀ before after, calls = before ++ after →
        WellVersioned (run step ⟨10, emptyDb⟩ before).db) ↔
      Meets step DeletesEarliest ⟨10, emptyDb⟩ calls :=
  versions_in_order_iff wellVersioned_emptyDb _

/-- After the deletion of the open version, which leaves a closed chain, a version is admitted that
starts within it. -/
theorem overlap_after_deletion :
    let s := run step ⟨10, emptyDb⟩
      [createModel "a" 1, createModel "b" 5, deleteModel "b", createModel "c" 2]
    ((liveChain "w" s.db.modelVersions).filter fun v => isApplicable v 3).map Version.clientId =
        ["a", "c"] ∧ ¬ WellVersioned s.db := by
  have hids : ((liveChain "w" (run step ⟨10, emptyDb⟩
      [createModel "a" 1, createModel "b" 5, deleteModel "b",
        createModel "c" 2]).db.modelVersions).filter
        fun v => isApplicable v 3).map Version.clientId = ["a", "c"] := by decide +kernel
  refine ⟨hids, fun h => ?_⟩
  have hlength := congrArg List.length hids
  rw [List.length_map] at hlength
  obtain ⟨v, hv⟩ := List.exists_mem_of_length_pos (by rw [hlength]; decide)
  obtain ⟨hmem, happlicable⟩ := List.mem_filter.mp hv
  have hone := (h.models "w").covered v hmem 3 (isApplicable_iff.mp happlicable).2.1
  cases hlength.symm.trans hone

end BeyoManager.ItemEconomics
