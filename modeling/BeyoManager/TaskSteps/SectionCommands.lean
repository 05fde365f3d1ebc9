import BeyoManager.TaskSteps.DependencyGraph

/-! # The commands on working sections

A section is created with prerequisites that exist, without a search for cycles; an edit replaces
its prerequisites after the search; a deletion marks the section and leaves its rows. In every run
the sections stay without a cycle, and the search decides every replacement.
-/

namespace BeyoManager.TaskSteps

open Cycles Relation Relational Transition

/-- The columns of `working_sections` that no step reads. -/
structure SectionProfile where
  sectionId : ClientId
  name : String
  image : Option String
  orderList : Option ℤ
  allowsShopifyProductModifications : Bool
  deriving DecidableEq, Repr

/-- The tables of one workspace with what belongs to its sections: the categories and issue types
that are not deleted, and the sections that they are linked to. -/
structure SectionTables where
  db : Db
  profiles : List SectionProfile
  itemCategories : List ClientId
  issueTypes : List ClientId
  sectionItemCategories : List (ClientId × ClientId)
  sectionIssueTypes : List (ClientId × ClientId)
  deriving DecidableEq, Repr

/-- `WorkingSectionCreateRequest`. -/
structure SectionCreateRequest where
  clientId : Option ClientId
  name : String
  image : Option String
  orderList : Option ℤ
  allowsBatchWorking : Bool
  allowsShopifyProductModifications : Bool
  workingSectionDependencies : List ClientId
  workingSectionItemCategories : List ClientId
  workingSectionSupportedIssueTypes : List ClientId

/-- `WorkingSectionEditRequest`, each field with whether it is set. -/
structure SectionEditRequest where
  clientId : ClientId
  name : Option String
  image : Option (Option String)
  orderList : Option (Option ℤ)
  allowsBatchWorking : Option Bool
  allowsShopifyProductModifications : Option Bool
  workingSectionDependencies : Option (List ClientId)
  workingSectionItemCategories : Option (List ClientId)
  workingSectionSupportedIssueTypes : Option (List ClientId)

namespace SectionTables

variable (t : SectionTables)

def nameTaken (name : String) (except : Option ClientId) : Bool :=
  t.db.workingSections.any fun s => !s.isDeleted && decide (some s.clientId ≠ except) &&
    t.profiles.any fun p => p.sectionId == s.clientId && p.name == name

def updateProfile (sectionId : ClientId) (f : SectionProfile → SectionProfile) : SectionTables :=
  { t with profiles := updateWhere (fun p => p.sectionId == sectionId) f t.profiles }

end SectionTables

def requireIds (field label : String) (present : ClientId → Bool) (ids : List ClientId) :
    Except CommandError Unit := do
  throwIf (¬ ids.Nodup) (.validation ("Duplicate IDs in " ++ field ++ " are not allowed."))
  match ids.find? fun id => !present id with
  | some id => throw (.notFound (label ++ " '" ++ id ++ "' was not found."))
  | none => pure ()

/-- The links of a section to some ids, in the place of those that it had. -/
def relink (sectionId : ClientId) (ids : List ClientId) (links : List (ClientId × ClientId)) :
    List (ClientId × ClientId) :=
  deleteWhere (fun l => l.1 == sectionId) links ++ ids.map (sectionId, ·)

section Create

def SectionTables.withSection (t : SectionTables) (request : SectionCreateRequest)
    (sectionId : ClientId) (sections : List WorkingSection) : SectionTables where
  db := { t.db with
    workingSections := sections
    workingSectionDependencies := t.db.workingSectionDependencies ++
      request.workingSectionDependencies.map fun id => ⟨sectionId, id⟩ }
  profiles := t.profiles ++ [⟨sectionId, request.name, request.image, request.orderList,
    request.allowsShopifyProductModifications⟩]
  itemCategories := t.itemCategories
  issueTypes := t.issueTypes
  sectionItemCategories := t.sectionItemCategories ++
    request.workingSectionItemCategories.map (sectionId, ·)
  sectionIssueTypes := t.sectionIssueTypes ++
    request.workingSectionSupportedIssueTypes.map (sectionId, ·)

/-- `create_working_section`; `newId` is the id of a section for which none is provided. -/
def createWorkingSection (t : SectionTables) (request : SectionCreateRequest) (newId : ClientId) :
    Except CommandError SectionTables := do
  let sectionId := request.clientId.getD newId
  throwIf (request.clientId.isSome ∧ t.db.workingSections.any (·.clientId == sectionId))
    (.conflict "Provided client_id is already in use.")
  throwIf (t.nameTaken request.name none)
    (.conflict ("A working section named '" ++ request.name ++ "' already exists."))
  requireIds "working_section_dependencies" "Working section dependency"
    (fun id => (t.db.fetchSection id).isSome) request.workingSectionDependencies
  requireIds "working_section_item_categories" "Item category"
    t.itemCategories.contains request.workingSectionItemCategories
  requireIds "working_section_supported_issue_types" "Issue type"
    t.issueTypes.contains request.workingSectionSupportedIssueTypes
  let sections ← insertRecords WorkingSection.clientId (.integrity "working_sections_pkey")
    [⟨sectionId, request.allowsBatchWorking, false⟩] t.db.workingSections
  pure (t.withSection request sectionId sections)

end Create

section Edit

/-- `sync_step_batch_flag_for_section_in_session`. -/
def syncStepBatchFlag (db : Db) (sectionId : ClientId) (allowsBatchWorking : Bool) : Db :=
  { db with
    taskSteps := updateWhere (fun s => s.workingSectionId == sectionId && !s.isDeleted &&
        !s.state.isTerminal && s.allowsBatchWorking != allowsBatchWorking)
      (fun s => { s with allowsBatchWorking := allowsBatchWorking }) db.taskSteps }

def setBatchFlag (db : Db) (sectionId : ClientId) (allowsBatchWorking : Bool) : Db :=
  syncStepBatchFlag { db with
    workingSections := updateWhere (fun s => s.clientId == sectionId)
      (fun s => { s with allowsBatchWorking := allowsBatchWorking }) db.workingSections }
    sectionId allowsBatchWorking

def SectionEditRequest.editProfile (request : SectionEditRequest) (p : SectionProfile) :
    SectionProfile :=
  { p with
    name := request.name.getD p.name
    image := request.image.getD p.image
    orderList := request.orderList.getD p.orderList
    allowsShopifyProductModifications :=
      request.allowsShopifyProductModifications.getD p.allowsShopifyProductModifications }

def editDependencies (db : Db) (request : SectionEditRequest) (now : Instant)
    (newEdgeId : ClientId → ClientId → ClientId) : Except CommandError Db :=
  match request.workingSectionDependencies with
  | some depIds => editWorkingSectionDependencies db request.clientId depIds now newEdgeId
  | none => .ok db

def editLinks (field label : String) (records : List ClientId) (sectionId : ClientId)
    (ids : Option (List ClientId)) (links : List (ClientId × ClientId)) :
    Except CommandError (List (ClientId × ClientId)) :=
  match ids with
  | some ids => do
    requireIds field label records.contains ids
    pure (relink sectionId ids links)
  | none => .ok links

/-- `edit_working_section`. -/
def editWorkingSection (t : SectionTables) (request : SectionEditRequest) (now : Instant)
    (newEdgeId : ClientId → ClientId → ClientId) : Except CommandError SectionTables := do
  let _ ← getOr (.notFound "Working section not found.") (t.db.fetchSection request.clientId)
  throwIf (request.name.any fun name => t.nameTaken name request.clientId)
    (.conflict ("A working section named '" ++ request.name.getD "" ++ "' already exists."))
  let flagged := match request.allowsBatchWorking with
    | some allows => setBatchFlag t.db request.clientId allows
    | none => t.db
  let db ← editDependencies flagged request now newEdgeId
  let categories ← editLinks "working_section_item_categories" "Item category" t.itemCategories
    request.clientId request.workingSectionItemCategories t.sectionItemCategories
  let issueTypes ← editLinks "working_section_supported_issue_types" "Issue type" t.issueTypes
    request.clientId request.workingSectionSupportedIssueTypes t.sectionIssueTypes
  pure { t.updateProfile request.clientId request.editProfile with
    db := db
    sectionItemCategories := categories
    sectionIssueTypes := issueTypes }

end Edit

/-- `delete_working_section`. -/
def deleteWorkingSection (t : SectionTables) (sectionId : ClientId) :
    Except CommandError SectionTables := do
  let _ ← getOr (.notFound "Working section not found.") (t.db.fetchSection sectionId)
  pure { t with
    db := { t.db with
      workingSections := updateWhere (fun s => s.clientId == sectionId && !s.isDeleted)
        (fun s => { s with isDeleted := true }) t.db.workingSections } }

/-- A command on the working sections. -/
inductive SectionOp
  | create (request : SectionCreateRequest) (newId : ClientId)
  | edit (request : SectionEditRequest) (now : Instant)
      (newEdgeId : ClientId → ClientId → ClientId)
  | delete (sectionId : ClientId)

def sectionStep (t : SectionTables) : SectionOp → Except CommandError SectionTables
  | .create request newId => createWorkingSection t request newId
  | .edit request now newEdgeId => editWorkingSection t request now newEdgeId
  | .delete sectionId => deleteWorkingSection t sectionId

/-- A run of commands; one that fails leaves the tables as they are. -/
abbrev sectionRun (t : SectionTables) (ops : List SectionOp) : SectionTables :=
  Transition.run sectionStep t ops

section Rows

variable {db db' : Db} {sectionId : ClientId} {depIds : List ClientId}

/-- Both sections of every row exist. -/
def Db.RowsExist (db : Db) : Prop :=
  ∀ d ∈ db.workingSectionDependencies,
    d.dependentSectionId ∈ db.workingSections.map WorkingSection.clientId ∧
      d.prerequisiteSectionId ∈ db.workingSections.map WorkingSection.clientId

structure SameSections (db db' : Db) : Prop where
  sections : db'.workingSections.map WorkingSection.clientId =
    db.workingSections.map WorkingSection.clientId
  rows : db'.workingSectionDependencies = db.workingSectionDependencies

theorem SameSections.trans {db'' : Db} (h : SameSections db db') (h' : SameSections db' db'') :
    SameSections db db'' :=
  ⟨h'.sections.trans h.sections, h'.rows.trans h.rows⟩

theorem mem_sections_of_fetchSection (h : (db.fetchSection sectionId).isSome) :
    sectionId ∈ db.workingSections.map WorkingSection.clientId := by
  obtain ⟨s, hs⟩ := Option.isSome_iff_exists.mp h
  have hid := List.find?_some hs
  simp only [Bool.and_eq_true, beq_iff_eq] at hid
  exact List.mem_map.mpr ⟨s, List.mem_of_find?_eq_some hs, hid.1⟩

theorem removeEdgesForSections_sections (removed : List ClientId) (now : Instant) :
    SameSections db (removeEdgesForSections db sectionId removed now) := by
  unfold removeEdgesForSections
  induction db.edgesForSections sectionId removed generalizing db with
  | nil => exact ⟨rfl, rfl⟩
  | cons e edges ih =>
    have hfirst : SameSections db
        ((db.removeEdge e.clientId now).updateStep e.dependentStepId TaskStep.dropDependency) :=
      ⟨rfl, rfl⟩
    exact hfirst.trans ih

theorem addEdgesForSections_sections {added : List ClientId}
    {newEdgeId : ClientId → ClientId → ClientId}
    (h : addEdgesForSections db sectionId added newEdgeId = .ok db') : SameSections db db' := by
  unfold addEdgesForSections at h
  generalize db.pairsForSections sectionId added = pairs at h
  induction pairs generalizing db with
  | nil =>
    cases h
    exact ⟨rfl, rfl⟩
  | cons pair pairs ih =>
    obtain ⟨db₁, h₁, h⟩ := foldlM_cons_eq_ok.mp h
    have hfirst : SameSections db db₁ := by
      obtain ⟨step, prereq⟩ := pair
      dsimp only at h₁
      split at h₁
      · cases h₁
        exact ⟨rfl, rfl⟩
      · obtain ⟨db₂, h₂, h₁⟩ := bind_eq_ok.mp h₁
        cases h₁
        obtain ⟨rfl, -⟩ := insertDependency_eq_ok h₂
        exact ⟨rfl, rfl⟩
    exact hfirst.trans (ih h)

theorem editWorkingSectionDependencies_sections {now : Instant}
    {newEdgeId : ClientId → ClientId → ClientId}
    (h : editWorkingSectionDependencies db sectionId depIds now newEdgeId = .ok db') :
    (db.fetchSection sectionId).isSome ∧ (∀ id ∈ depIds, (db.fetchSection id).isSome) ∧
      SameSections (db.withPrerequisiteSections sectionId depIds) db' := by
  refine ⟨?_, ?_, ?_⟩
  · obtain ⟨s, hs, -⟩ := bind_eq_ok.mp h
    rw [getOr_eq_ok.mp hs]
    rfl
  · obtain ⟨-, -, h⟩ := bind_eq_ok.mp h
    obtain ⟨-, h⟩ := throwIf_bind_eq_ok.mp h
    split at h
    · cases h
    · next hfind =>
      intro id hid
      simpa [Option.isSome_iff_ne_none] using List.find?_eq_none.mp hfind id hid
  · exact (removeEdgesForSections_sections _ _).trans
      (addEdgesForSections_sections (editWorkingSectionDependencies_eq_ok h))

end Rows

section Runs

variable {db db' : Db} {t t' : SectionTables}

/-- The sections have no cycle, and their rows no end that is missing. -/
structure SectionInv (db : Db) : Prop where
  acyclic : Acyclic db.SectionRow
  exist : db.RowsExist

theorem SectionInv.congr (inv : SectionInv db) (h : SameSections db db') : SectionInv db' where
  acyclic := by
    have hrow : db'.SectionRow = db.SectionRow := by
      funext a b
      rw [Db.SectionRow, Db.SectionRow, h.rows]
    rw [hrow]
    exact inv.acyclic
  exist := by
    rw [Db.RowsExist, h.rows, h.sections]
    exact inv.exist

theorem requireIds_eq_ok {field label : String} {present : ClientId → Bool} {ids : List ClientId}
    {u : Unit} (h : requireIds field label present ids = .ok u) :
    ids.Nodup ∧ ∀ id ∈ ids, present id = true := by
  obtain ⟨hnodup, h⟩ := throwIf_bind_eq_ok.mp h
  split at h
  · cases h
  · next hfind =>
    refine ⟨not_not.mp hnodup, fun id hid => ?_⟩
    simpa using List.find?_eq_none.mp hfind id hid

/-- A section that no row knows can wait for any sections. -/
theorem SectionInv.create (inv : SectionInv db) {s : WorkingSection} {depIds : List ClientId}
    (hnew : s.clientId ∉ db.workingSections.map WorkingSection.clientId)
    (hdeps : ∀ id ∈ depIds, id ∈ db.workingSections.map WorkingSection.clientId)
    (hsections : db'.workingSections = db.workingSections ++ [s])
    (hrows : db'.workingSectionDependencies =
      db.workingSectionDependencies ++ depIds.map fun id => ⟨s.clientId, id⟩) :
    SectionInv db' where
  acyclic := by
    have hadd : Acyclic fun a b => db.SectionRow a b ∨ a = s.clientId ∧ b ∈ depIds := by
      apply inv.acyclic.add
      rintro a b ⟨-, hb⟩ a' b' ⟨rfl, -⟩ hpath
      rcases hpath.cases_tail with heq | ⟨c, -, d, hd, -, hlast⟩
      · exact hnew (heq ▸ hdeps b hb)
      · exact hnew (hlast ▸ (inv.exist d hd).2)
    apply hadd.mono
    rintro a b ⟨d, hd, rfl, rfl⟩
    rw [hrows] at hd
    rcases List.mem_append.mp hd with hd | hd
    · exact .inl ⟨d, hd, rfl, rfl⟩
    · obtain ⟨id, hid, rfl⟩ := List.mem_map.mp hd
      exact .inr ⟨rfl, hid⟩
  exist := by
    intro d hd
    rw [hsections, List.map_append, List.mem_append, List.mem_append]
    rw [hrows] at hd
    rcases List.mem_append.mp hd with hd | hd
    · exact ⟨.inl (inv.exist d hd).1, .inl (inv.exist d hd).2⟩
    · obtain ⟨id, hid, rfl⟩ := List.mem_map.mp hd
      exact ⟨.inr (by simp), .inl (hdeps id hid)⟩

theorem createWorkingSection_inv {request : SectionCreateRequest} {newId : ClientId}
    (inv : SectionInv t.db) (h : createWorkingSection t request newId = .ok t') :
    SectionInv t'.db := by
  obtain ⟨-, h⟩ := throwIf_bind_eq_ok.mp h
  obtain ⟨-, h⟩ := throwIf_bind_eq_ok.mp h
  obtain ⟨_, hdeps, h⟩ := bind_eq_ok.mp h
  obtain ⟨_, -, h⟩ := bind_eq_ok.mp h
  obtain ⟨_, -, h⟩ := bind_eq_ok.mp h
  obtain ⟨sections, hinsert, h⟩ := bind_eq_ok.mp h
  cases h
  obtain ⟨hkeyed, rfl⟩ := insertRecords_eq_ok.mp hinsert
  apply inv.create (s := ⟨request.clientId.getD newId, request.allowsBatchWorking, false⟩) ?_ ?_
    rfl rfl
  · intro hmem
    rw [Keyed, List.map_append, List.nodup_append] at hkeyed
    exact hkeyed.2.2 _ hmem _ (by simp) rfl
  · exact fun id hid => mem_sections_of_fetchSection ((requireIds_eq_ok hdeps).2 id hid)

theorem setBatchFlag_sections {sectionId : ClientId} {allows : Bool} :
    SameSections db (setBatchFlag db sectionId allows) :=
  ⟨map_updateWhere_of_fixed fun _ _ _ => rfl, rfl⟩

/-- An edit that passes the search keeps the sections without a cycle. -/
theorem editDependencies_inv {request : SectionEditRequest} {now : Instant}
    {newEdgeId : ClientId → ClientId → ClientId} (inv : SectionInv db)
    (h : editDependencies db request now newEdgeId = .ok db') : SectionInv db' := by
  unfold editDependencies at h
  cases hids : request.workingSectionDependencies with
  | none =>
    simp only [hids] at h
    cases h
    exact inv
  | some depIds =>
    simp only [hids] at h
    obtain ⟨u, hcheck⟩ := editWorkingSectionDependencies_checked h
    obtain ⟨hsection, hdeps, hsame⟩ := editWorkingSectionDependencies_sections h
    refine SectionInv.congr ⟨?_, ?_⟩ hsame
    · exact acyclic_withPrerequisiteSections inv.acyclic (checkForDependencyCycle_eq_ok hcheck)
    · intro d hd
      rcases List.mem_append.mp hd with hd | hd
      · exact inv.exist d (mem_deleteWhere.mp hd).1
      · obtain ⟨id, hid, rfl⟩ := List.mem_map.mp hd
        exact ⟨mem_sections_of_fetchSection hsection, mem_sections_of_fetchSection (hdeps id hid)⟩

theorem editWorkingSection_inv {request : SectionEditRequest} {now : Instant}
    {newEdgeId : ClientId → ClientId → ClientId} (inv : SectionInv t.db)
    (h : editWorkingSection t request now newEdgeId = .ok t') : SectionInv t'.db := by
  obtain ⟨_, -, h⟩ := bind_eq_ok.mp h
  obtain ⟨-, h⟩ := throwIf_bind_eq_ok.mp h
  obtain ⟨db, hdb, h⟩ := bind_eq_ok.mp h
  obtain ⟨_, -, h⟩ := bind_eq_ok.mp h
  obtain ⟨_, -, h⟩ := bind_eq_ok.mp h
  cases h
  apply editDependencies_inv ?_ hdb
  cases request.allowsBatchWorking with
  | none => exact inv
  | some allows => exact inv.congr setBatchFlag_sections

theorem deleteWorkingSection_inv {sectionId : ClientId} (inv : SectionInv t.db)
    (h : deleteWorkingSection t sectionId = .ok t') : SectionInv t'.db := by
  obtain ⟨_, -, h⟩ := bind_eq_ok.mp h
  cases h
  exact inv.congr ⟨map_updateWhere_of_fixed fun _ _ _ => rfl, rfl⟩

theorem sectionRun_inv (inv : SectionInv t.db) (ops : List SectionOp) :
    SectionInv (sectionRun t ops).db := by
  refine run_invariant (fun t : SectionTables => SectionInv t.db) (fun t op t' inv h => ?_) inv ops
  cases op with
  | create => exact createWorkingSection_inv inv h
  | edit => exact editWorkingSection_inv inv h
  | delete => exact deleteWorkingSection_inv inv h

/-- In every run of commands on the sections they stay without a cycle, and the search decides
every replacement of prerequisites. -/
theorem section_graph_of_run (t : SectionTables) (hacyclic : Acyclic t.db.SectionRow)
    (hexist : t.db.RowsExist) (ops : List SectionOp) :
    Acyclic (sectionRun t ops).db.SectionRow ∧
      ∀ sectionId depIds, Decides (sectionRun t ops).db sectionId depIds := by
  have inv := sectionRun_inv ⟨hacyclic, hexist⟩ ops
  exact ⟨inv.acyclic, decides_of_acyclic inv.acyclic⟩

def newWorkshop : SectionTables where
  db := ⟨[], [], [], [], [], [], [], [], [], []⟩
  profiles := []
  itemCategories := []
  issueTypes := []
  sectionItemCategories := []
  sectionIssueTypes := []

def plainSection (name : String) (depIds : List ClientId) : SectionCreateRequest :=
  ⟨none, name, none, none, false, false, depIds, [], []⟩

def rewire (sectionId : ClientId) (depIds : List ClientId) : SectionEditRequest :=
  ⟨sectionId, none, none, none, none, none, some depIds, none, none⟩

/-- Sanding and painting; the sanding cannot wait for the painting. -/
def workshopOps : List SectionOp :=
  [.create (plainSection "Sanding" []) "wsec_1",
    .create (plainSection "Painting" ["wsec_1"]) "wsec_2",
   .edit (rewire "wsec_1" ["wsec_2"]) 0 (fun _ _ => ""), .delete "wsec_1"]

example : (sectionRun newWorkshop workshopOps).db.workingSectionDependencies =
    [⟨"wsec_2", "wsec_1"⟩] := by decide +kernel

theorem section_graph_of_run_workshop :
    Acyclic (sectionRun newWorkshop workshopOps).db.SectionRow ∧
      ∀ sectionId depIds, Decides (sectionRun newWorkshop workshopOps).db sectionId depIds := by
  apply section_graph_of_run newWorkshop _ _ workshopOps
  · apply acyclic_of_forall_not
    rintro a b ⟨d, hd, -⟩
    cases hd
  · rintro d hd
    cases hd

end Runs

end BeyoManager.TaskSteps
