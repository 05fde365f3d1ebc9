import BeyoManager.ItemEconomics.VersionRuns
import BeyoManager.Library.Supersession

/-! # Evaluations and valuations over runs

In every state of a run a task has at most one current evaluation, to which the superseded ones
lead, and an item at most one current valuation. A commit leaves the valuation of its item with
the amounts of the evaluation; the currency is the same unless a stored projection was promoted
whose currency the valuation has no longer.
-/

namespace BeyoManager.ItemEconomics

open Relational Transition Supersession View

/-- How the evaluations are read: the committed ones of a task supersede each other. -/
def evaluationView : View ItemCostEvaluation String (String × String) where
  key := ItemCostEvaluation.clientId
  group e := (e.workspaceId, e.taskId)
  member e := e.kind == .committed && !e.isDeleted
  current := ItemCostEvaluation.isCurrent
  next := ItemCostEvaluation.supersededById

/-- How the valuations are read. A valuation can be deleted, so that no pointer is followed. -/
def valuationView : View ItemValuation String (String × String) where
  key := ItemValuation.clientId
  group v := (v.workspaceId, v.itemId)
  member _ := false
  current := ItemValuation.isCurrent
  next := ItemValuation.supersededById

/-- Both tables are tables of superseded records. -/
structure Superseding (db : Db) : Prop where
  evaluations : evaluationView.Chained db.evaluations
  valuations : valuationView.Chained db.valuations

section Valuations

variable {workspaceId itemId newId : String} {price cost : Option ℤ} {currency : ItemCurrency}
  {valuations valuations' : List ItemValuation} {v : ItemValuation}

theorem currentValuation_eq_some (h : currentValuation workspaceId itemId valuations = some v) :
    v ∈ valuations ∧ v.workspaceId = workspaceId ∧ v.itemId = itemId ∧ v.isCurrent := by
  have hv := List.find?_some h
  simp only [Bool.and_eq_true, beq_iff_eq] at hv
  exact ⟨List.mem_of_find?_eq_some h, hv.1.1, hv.1.2, hv.2⟩

theorem currentValuation_eq (h : valuationView.Chained valuations) (hv : v ∈ valuations)
    (hcurrent : v.isCurrent) : currentValuation v.workspaceId v.itemId valuations = some v := by
  rcases hfind : currentValuation v.workspaceId v.itemId valuations with _ | w
  · have hnot := List.find?_eq_none.mp hfind v hv
    simp [hcurrent] at hnot
  · obtain ⟨hw, hws, hitem, hwc⟩ := currentValuation_eq_some hfind
    have hsame : w = v := h.single w hw v hv hwc hcurrent (Prod.ext hws hitem)
    rw [hsame]

def newValuation (workspaceId itemId newId : String) (price cost : Option ℤ)
    (currency : ItemCurrency) : ItemValuation where
  clientId := newId
  workspaceId := workspaceId
  itemId := itemId
  expectedSalePriceMinor := price
  purchaseCostMinor := cost
  currency := currency
  superseded := false
  supersededById := none
  isDeleted := false

/-- The valuation chain is advanced to the new row, which is the current one then. -/
theorem writeItemValuationChainInSession_chained (h : valuationView.Chained valuations)
    (hok : writeItemValuationChainInSession workspaceId itemId newId price cost
      currency valuations =
      .ok valuations') :
    valuationView.Chained valuations' ∧ currentValuation workspaceId itemId valuations' =
      some (newValuation workspaceId itemId newId price cost currency) := by
  obtain ⟨-, hok⟩ := throwIf_bind_eq_ok.mp hok
  obtain ⟨inserted, hinserted, hok⟩ := bind_eq_ok.mp hok
  obtain ⟨hkeyed, rfl⟩ := insertRecords_eq_ok.mp hinserted
  set new := newValuation workspaceId itemId newId price cost currency
  have hopen : ∀ v ∈ valuations,
    (v.workspaceId == workspaceId && v.itemId == itemId && v.isCurrent) ↔
      valuationView.current v ∧ valuationView.group v = valuationView.group new := by
    intro v _
    simp only [Bool.and_eq_true, beq_iff_eq, valuationView, new, newValuation, Prod.mk.injEq]
    exact and_comm
  have hend : valuationView.Ending newId (fun v => { v with superseded := true })
      (fun v => { v with supersededById := some newId }) :=
    ⟨fun _ => ⟨rfl, rfl, rfl, rfl⟩, fun v => by simp [valuationView, ItemValuation.isCurrent],
      fun _ => ⟨rfl, rfl, rfl, rfl⟩, fun _ => rfl⟩
  have hchained := h.supersede (n := new) hend hopen rfl rfl hkeyed
  have hresult : valuations' = valuationView.supersede (fun v => v.workspaceId == workspaceId &&
      v.itemId == itemId && v.isCurrent) (fun v => { v with superseded := true })
      (fun v => { v with supersededById := some newId }) new valuations := by
    rcases hfind : valuations.find? fun v =>
      v.workspaceId == workspaceId && v.itemId == itemId && v.isCurrent with _ | old
    · rw [supersede_of_none hfind]
      rw [currentValuation, hfind] at hok
      cases hok
      rfl
    · rw [supersede_of_some hfind]
      rw [currentValuation, hfind] at hok
      dsimp only at hok
      rw [if_pos (h.countP_open (fun v hv hc => (hopen v hv).mp hc) hfind)] at hok
      cases hok
      rfl
  rw [hresult]
  refine ⟨hchained, ?_⟩
  have hcurrent : new.isCurrent = true := rfl
  refine currentValuation_eq hchained ?_ hcurrent
  exact mem_supersede (V := valuationView) (fun v => (hend.close_keep v).1) hkeyed

end Valuations

section Evaluations

variable {evaluations evaluations' : List ItemCostEvaluation} {row : ItemCostEvaluation}

/-- A committed evaluation supersedes the current one of its task, a projection none. -/
theorem insertEvaluation_chained (h : evaluationView.Chained evaluations)
    (hlive : row.superseded = false ∧ row.isDeleted = false) (hlast : row.supersededById = none)
    (hok : insertEvaluation row evaluations = .ok evaluations') :
    evaluationView.Chained evaluations' ∧ row ∈ evaluations' ∧
      evaluations'.map (·.clientId) = evaluations.map (·.clientId) ++ [row.clientId] := by
  obtain ⟨-, hok⟩ := throwIf_bind_eq_ok.mp hok
  obtain ⟨inserted, hinserted, hok⟩ := bind_eq_ok.mp hok
  cases hkind : row.kind with
  | projection =>
    have hne : ¬ row.kind = .committed := by rw [hkind]; decide
    rw [if_neg hne] at hinserted hok
    obtain ⟨hkeyed, rfl⟩ := insertRecords_eq_ok.mp hinserted
    cases hok
    refine ⟨h.append_other ?_ ?_ hkeyed, by simp, by simp⟩
    · simp [evaluationView, hkind]
    · simp [evaluationView, ItemCostEvaluation.isCurrent, hkind]
  | committed =>
    rw [if_pos hkind] at hinserted hok
    obtain ⟨hkeyed, rfl⟩ := insertRecords_eq_ok.mp hinserted
    have hend : evaluationView.Ending row.clientId (fun e => { e with superseded := true })
        (fun e => { e with supersededById := some row.clientId }) :=
      ⟨fun _ => ⟨rfl, rfl, rfl, rfl⟩,
        fun e => by simp [evaluationView, ItemCostEvaluation.isCurrent],
        fun _ => ⟨rfl, rfl, rfl, rfl⟩, fun _ => rfl⟩
    have hopen : ∀ e ∈ evaluations, (e.workspaceId == row.workspaceId && e.taskId == row.taskId &&
        e.isCurrent) ↔ evaluationView.current e ∧ evaluationView.group e =
          evaluationView.group row := by
      intro e _
      simp only [Bool.and_eq_true, beq_iff_eq, evaluationView, Prod.mk.injEq]
      exact and_comm
    have hcurrent : evaluationView.current row := by
      simp [evaluationView, ItemCostEvaluation.isCurrent, hkind, hlive]
    have hresult : evaluations' = evaluationView.supersede (fun e => e.workspaceId ==
        row.workspaceId && e.taskId == row.taskId && e.isCurrent) (fun e => { e with
          superseded := true }) (fun e => { e with supersededById := some row.clientId }) row
        evaluations := by
      rcases hfind : evaluations.find? fun e =>
        e.workspaceId == row.workspaceId && e.taskId == row.taskId && e.isCurrent with _ | old
      · rw [supersede_of_none hfind]
        rw [currentEvaluation, hfind] at hok
        cases hok
        rfl
      · rw [supersede_of_some hfind]
        rw [currentEvaluation, hfind] at hok
        cases hok
        rfl
    rw [hresult]
    exact ⟨h.supersede hend hopen hcurrent hlast hkeyed,
      mem_supersede (fun e => (hend.close_keep e).1) hkeyed,
      keys_supersede (fun e => (hend.close_keep e).1) fun e => (hend.link_keep e).1⟩

end Evaluations

section Commit

variable {today : Day} {a : CommitArguments} {db db' : Db} {item : Item} {inputs : CommitInputs}

/-- The current valuation of the item of an evaluation has its price and its purchase cost. -/
def Priced (db : Db) (e : ItemCostEvaluation) : Prop :=
  ∃ v, currentValuation e.workspaceId e.itemId db.valuations = some v ∧
    v.expectedSalePriceMinor = e.expectedSalePriceMinor ∧ v.purchaseCostMinor = e.purchaseCostMinor

/-- The current valuation of the item of an evaluation has its amounts and its currency. -/
def Mirrored (db : Db) (e : ItemCostEvaluation) : Prop :=
  ∃ v, currentValuation e.workspaceId e.itemId db.valuations = some v ∧
    v.expectedSalePriceMinor = e.expectedSalePriceMinor ∧
    v.purchaseCostMinor = e.purchaseCostMinor ∧ v.currency = e.currency

/-- The price and the cost of the current evaluations that a command has added are mirrored. -/
def NewPriced (db db' : Db) : Prop :=
  ∀ e ∈ db'.evaluations, e.isCurrent → e.clientId ∉ db.evaluations.map (·.clientId) → Priced db' e

/-- The current evaluations that a command has added are mirrored. -/
def NewMirrored (db db' : Db) : Prop :=
  ∀ e ∈ db'.evaluations, e.isCurrent → e.clientId ∉ db.evaluations.map (·.clientId) → Mirrored db' e

theorem NewMirrored.priced (h : NewMirrored db db') : NewPriced db db' := fun e he hcurrent hnew =>
  have ⟨v, hv, hprice, hcost, _⟩ := h e he hcurrent hnew
  ⟨v, hv, hprice, hcost⟩

def HasCurrency (db : Db) (workspaceId taskId : String) (currency : ItemCurrency) : Prop :=
  ∀ task item, loadTaskAndPrimary db workspaceId taskId = .ok (task, item) →
    ∀ v ∈ currentValuation workspaceId item.clientId db.valuations, v.currency = currency

/-- The inputs of a commit come with the current valuation of the item, and its currency comes from
there or from the source. -/
theorem commitInputs_eq_ok (h : commitInputs today a db item = .ok inputs) :
    currentValuation a.workspaceId item.clientId db.valuations = some inputs.valuation ∧
      (a.source = none → inputs.currency = inputs.valuation.currency) ∧
      ∀ source terms, a.source = some (source, terms) → inputs.currency = source.currency := by
  rw [commitInputs] at h
  split at h
  · rename_i hsource
    obtain ⟨-, h⟩ := throwIf_bind_eq_ok.mp h
    split at h
    · rename_i v _ _ _ _ hv _ _ _ _
      cases h
      exact ⟨hv, fun _ => rfl, fun source terms hs => by cases hsource.symm.trans hs⟩
    · cases h
  · rename_i source terms hsource
    obtain ⟨v, hv, h⟩ := bind_eq_ok.mp h
    cases h
    refine ⟨getOr_eq_ok.mp hv, fun hs => ?_, fun source' terms' hs => ?_⟩
    · cases hsource.symm.trans hs
    · cases hsource.symm.trans hs
      rfl

theorem mirrorValuation_chained {valuations : List ItemValuation}
    (h : valuationView.Chained db.valuations) (hkind : a.kind = .committed)
    (hcurrent : currentValuation a.workspaceId item.clientId db.valuations = some inputs.valuation)
    (hok : mirrorValuation a item inputs db.valuations = .ok valuations) :
    ∃ v, currentValuation a.workspaceId item.clientId valuations = some v ∧
      v.expectedSalePriceMinor = inputs.expectedPrice ∧ v.purchaseCostMinor = inputs.purchaseCost ∧
      v.currency = inputs.valuation.currency := by
  rw [mirrorValuation] at hok
  split at hok
  · exact ⟨_, (writeItemValuationChainInSession_chained h hok).2, rfl, rfl, rfl⟩
  · rename_i hsame
    cases hok
    have hamounts := not_and_not_right.mp hsame hkind
    obtain ⟨hprice, hcost⟩ := Prod.mk.inj hamounts
    exact ⟨inputs.valuation, hcurrent, hprice.symm, hcost.symm, rfl⟩

theorem mirrorValuation_keeps {valuations : List ItemValuation}
    (h : valuationView.Chained db.valuations)
    (hok : mirrorValuation a item inputs db.valuations = .ok valuations) :
    valuationView.Chained valuations := by
  rw [mirrorValuation] at hok
  split at hok
  · exact (writeItemValuationChainInSession_chained h hok).1
  · cases hok
    exact h

/-- A commit keeps both tables in order, and mirrors the amounts of its evaluation, with the
currency unless it comes from a source in another one. -/
theorem commit_superseding (h : Superseding db)
    (hok : commitItemCostEvaluationInSession today a db = .ok db') :
    Superseding db' ∧ NewPriced db db' ∧ (NewMirrored db db' ↔ (a.kind = .committed →
      ∀ source terms, a.source = some (source, terms) →
        HasCurrency db a.workspaceId a.taskId source.currency)) := by
  obtain ⟨task, item, inputs, rate, budget, allowed, evaluations, terms, valuations, hload, hinputs,
    hevaluations, hvaluations, hdb⟩ := commitItemCostEvaluationInSession_eq_ok hok
  obtain ⟨hdbe, hdbv⟩ : db'.evaluations = evaluations ∧ db'.valuations = valuations := by
    rw [hdb]
    exact ⟨rfl, rfl⟩
  obtain ⟨hchained, hmem, hids⟩ :=
    insertEvaluation_chained h.evaluations ⟨rfl, rfl⟩ rfl hevaluations
  obtain ⟨hcurrent, hlive, hsource⟩ := commitInputs_eq_ok hinputs
  refine ⟨⟨hdbe ▸ hchained, hdbv ▸ mirrorValuation_keeps h.valuations hvaluations⟩, ?_⟩
  have hnew : a.newId ∉ db.evaluations.map (·.clientId) := by
    have hnodup : (evaluations.map (·.clientId)).Nodup := hchained.keyed
    rw [hids] at hnodup
    intro hold
    exact (List.nodup_append.mp hnodup).2.2 _ hold _ (List.mem_singleton.mpr rfl) rfl
  have honly : ∀ e ∈ evaluations, e.clientId ∉ db.evaluations.map (·.clientId) →
      e = evaluationRow a task item inputs rate budget allowed := by
    intro e he hfresh
    have hid := List.mem_map_of_mem (f := ItemCostEvaluation.clientId) he
    rw [hids] at hid
    rcases List.mem_append.mp hid with hold | hid
    · exact absurd hold hfresh
    · exact hchained.keyed.inj he hmem (List.mem_singleton.mp hid)
  by_cases hkind : a.kind = .committed
  · obtain ⟨v, hv, hprice, hcost, hcurrency⟩ :=
      mirrorValuation_chained h.valuations hkind hcurrent hvaluations
    rw [← hdbv] at hv
    refine ⟨fun e he _ hfresh => ?_, ?_⟩
    · obtain rfl := honly e (hdbe ▸ he) hfresh
      exact ⟨v, hv, hprice, hcost⟩
    have hmirrored : NewMirrored db db' ↔ inputs.valuation.currency = inputs.currency := by
      constructor
      · intro hall
        obtain ⟨v', hv', -, -, hc⟩ := hall _ (hdbe ▸ hmem)
          (by simp [ItemCostEvaluation.isCurrent, evaluationRow, hkind]) hnew
        obtain rfl := Option.some.inj (hv.symm.trans hv')
        exact hcurrency.symm.trans hc
      · intro hsame e he _ hfresh
        obtain rfl := honly e (hdbe ▸ he) hfresh
        exact ⟨v, hv, hprice, hcost, hcurrency.trans hsame⟩
    rw [hmirrored]
    constructor
    · intro hsame _ source sourceTerms hs task' item' hload' v' hv'
      cases hload.symm.trans hload'
      obtain rfl := Option.some.inj (hcurrent.symm.trans hv')
      exact hsame.trans (hsource source sourceTerms hs)
    · intro hall
      rcases hs : a.source with _ | ⟨source, sourceTerms⟩
      · exact (hlive hs).symm
      · rw [hsource source sourceTerms hs]
        exact hall hkind source sourceTerms hs task item hload _ hcurrent
  · have hnone : NewMirrored db db' := fun e he hcur hfresh => by
      obtain rfl := honly e (hdbe ▸ he) hfresh
      simp [ItemCostEvaluation.isCurrent, evaluationRow, hkind] at hcur
    exact ⟨hnone.priced, iff_of_true hnone fun hc => absurd hc hkind⟩

end Commit

/-- A promoted projection has the currency of the current valuation of the item. -/
def SameCurrency (s : State) (call : Call) : Prop :=
  match call.command with
  | .promoteItemCostProjection workspaceId clientId _ _ =>
    ∀ projection ∈ s.db.evaluations.find? fun e => e.workspaceId == workspaceId &&
      e.clientId == clientId && e.kind == .projection && !e.isDeleted,
      HasCurrency s.db workspaceId projection.taskId projection.currency
  | _ => True

section Steps

variable {today : Day} {db db' : Db}

theorem newMirrored_of_ids
    (h : db'.evaluations.map (·.clientId) = db.evaluations.map (·.clientId)) :
    NewMirrored db db' := by
  intro e he _ hfresh
  rw [← h] at hfresh
  exact absurd (List.mem_map_of_mem he) hfresh

/-- The commands on versions write neither an evaluation nor a valuation. -/
theorem version_commands_keep :
    (∀ {workspaceId newId request},
      createCostModelVersion today workspaceId newId request db = .ok db' →
      db'.evaluations = db.evaluations ∧ db'.valuations = db.valuations) ∧
    (∀ {workspaceId clientId}, deleteCostModelVersion workspaceId clientId db = .ok db' →
      db'.evaluations = db.evaluations ∧ db'.valuations = db.valuations) ∧
    (∀ {workspaceId newId request},
      createProductionCostBasisVersion today workspaceId newId request db = .ok db' →
        db'.evaluations = db.evaluations ∧ db'.valuations = db.valuations) ∧
    (∀ {workspaceId clientId}, deleteProductionCostBasisVersion workspaceId clientId db = .ok db' →
      db'.evaluations = db.evaluations ∧ db'.valuations = db.valuations) := by
  refine ⟨?_, ?_, ?_, ?_⟩
  · intro workspaceId newId request hok
    obtain ⟨-, hok⟩ := throwIf_bind_eq_ok.mp hok
    obtain ⟨-, hok⟩ := throwIf_bind_eq_ok.mp hok
    obtain ⟨_, -, hok⟩ := bind_eq_ok.mp hok
    obtain ⟨_, -, hok⟩ := bind_eq_ok.mp hok
    obtain ⟨versions, -, hok⟩ := bind_eq_ok.mp hok
    cases hok
    exact ⟨rfl, rfl⟩
  · intro workspaceId clientId hok
    obtain ⟨v, -, hok⟩ := bind_eq_ok.mp hok
    obtain ⟨-, hok⟩ := throwIf_bind_eq_ok.mp hok
    cases hok
    exact ⟨rfl, rfl⟩
  · intro workspaceId newId request hok
    obtain ⟨group, -, hok⟩ := bind_eq_ok.mp hok
    obtain ⟨_, -, hok⟩ := bind_eq_ok.mp hok
    obtain ⟨rate, -, hok⟩ := bind_eq_ok.mp hok
    obtain ⟨-, hok⟩ := throwIf_bind_eq_ok.mp hok
    obtain ⟨versions, -, hok⟩ := bind_eq_ok.mp hok
    cases hok
    exact ⟨rfl, rfl⟩
  · intro workspaceId clientId hok
    obtain ⟨v, -, hok⟩ := bind_eq_ok.mp hok
    obtain ⟨-, hok⟩ := throwIf_bind_eq_ok.mp hok
    cases hok
    exact ⟨rfl, rfl⟩

theorem setItemValuation_superseding {workspaceId itemId newId : String} {price cost : Option ℤ}
    {currency : ItemCurrency} (h : Superseding db)
    (hok : setItemValuation today workspaceId itemId newId price cost currency db = .ok db') :
    Superseding db' ∧ db'.evaluations = db.evaluations := by
  obtain ⟨-, hok⟩ := throwIf_bind_eq_ok.mp hok
  obtain ⟨item, -, hok⟩ := bind_eq_ok.mp hok
  obtain ⟨valuations, hvaluations, hok⟩ := bind_eq_ok.mp hok
  obtain ⟨_, -, hok⟩ := bind_eq_ok.mp hok
  cases hok
  exact ⟨⟨h.evaluations, (writeItemValuationChainInSession_chained h.valuations hvaluations).1⟩,
    rfl⟩

theorem writeItemValuation_superseding {workspaceId itemId newId : String} {price cost : Option ℤ}
    {currency : ItemCurrency} (h : Superseding db)
    (hok : writeItemValuation workspaceId itemId newId price cost currency db = .ok db') :
    Superseding db' ∧ db'.evaluations = db.evaluations := by
  obtain ⟨valuations, hvaluations, hok⟩ := bind_eq_ok.mp hok
  cases hok
  exact ⟨⟨h.evaluations, (writeItemValuationChainInSession_chained h.valuations hvaluations).1⟩,
    rfl⟩

theorem deleteItemValuation_superseding {workspaceId itemId : String} {valuationId : Option String}
    (h : Superseding db) (hok : deleteItemValuation workspaceId valuationId itemId db = .ok db') :
    Superseding db' ∧ db'.evaluations = db.evaluations := by
  obtain ⟨valuation, -, hok⟩ := bind_eq_ok.mp hok
  obtain ⟨-, hok⟩ := throwIf_bind_eq_ok.mp hok
  obtain ⟨-, hok⟩ := throwIf_bind_eq_ok.mp hok
  cases hok
  refine ⟨⟨h.evaluations, h.valuations.map ?_ ?_ ?_⟩, rfl⟩
  · intro v _
    split <;> exact ⟨rfl, rfl, rfl⟩
  · intro v _ hcurrent
    split at hcurrent
    · simp [valuationView, ItemValuation.isCurrent] at hcurrent
    · exact hcurrent
  · intro v _ hmember
    simp [valuationView] at hmember

theorem deleteItemCostProjection_superseding {workspaceId clientId : String} (h : Superseding db)
    (hok : deleteItemCostProjection workspaceId clientId db = .ok db') :
    Superseding db' ∧ db'.evaluations.map (·.clientId) = db.evaluations.map (·.clientId) := by
  obtain ⟨projection, hfind, hok⟩ := bind_eq_ok.mp hok
  cases hok
  have hfind := getOr_eq_ok.mp hfind
  have hprojection := List.find?_some hfind
  simp only [Bool.and_eq_true, beq_iff_eq] at hprojection
  have hmem := List.mem_of_find?_eq_some hfind
  -- the record that is written is no committed one
  have hkind : ∀ e ∈ db.evaluations, e.clientId == projection.clientId → e.kind = .projection := by
    intro e he hid
    obtain rfl := h.evaluations.keyed.inj he hmem (beq_iff_eq.mp hid)
    exact hprojection.1.2
  refine ⟨⟨h.evaluations.map ?_ ?_ ?_, h.valuations⟩, map_updateWhere_of_fixed fun _ _ _ => rfl⟩
  · intro e _
    split <;> exact ⟨rfl, rfl, rfl⟩
  · intro e he hcurrent
    split at hcurrent
    · simp [evaluationView, ItemCostEvaluation.isCurrent] at hcurrent
    · exact hcurrent
  · intro e he hmember
    refine ⟨?_, fun c hc _ hcurrent => ?_⟩
    · split at hmember
      · simp [evaluationView] at hmember
      · exact hmember
    · split
      · rename_i hid
        have hk := hkind c hc hid
        simp [evaluationView, ItemCostEvaluation.isCurrent, hk] at hcurrent
      · exact hcurrent

end Steps

/-- A command keeps both tables in order and mirrors the amounts that it commits, and their currency
if and only if it does not promote a projection in another one. -/
theorem step_superseding {s s' : State} {call : Call} (h : Superseding s.db)
    (hok : step s call = .ok s') :
    Superseding s'.db ∧ NewPriced s.db s'.db ∧ (NewMirrored s.db s'.db ↔ SameCurrency s call) := by
  have hok := step_eq_ok hok
  obtain ⟨elapsed, command⟩ := call
  have hsame : s'.db.evaluations = s.db.evaluations ∧ s'.db.valuations = s.db.valuations →
      Superseding s'.db ∧ NewMirrored s.db s'.db := by
    rintro ⟨he, hv⟩
    exact ⟨⟨he ▸ h.evaluations, hv ▸ h.valuations⟩, newMirrored_of_ids (he ▸ rfl)⟩
  have hvaluation : Superseding s'.db ∧ s'.db.evaluations = s.db.evaluations →
      Superseding s'.db ∧ NewMirrored s.db s'.db := by
    rintro ⟨hs, he⟩
    exact ⟨hs, newMirrored_of_ids (he ▸ rfl)⟩
  cases command with
  | createCostModelVersion =>
    exact (hsame (version_commands_keep.1 hok)).imp_right fun hm =>
      ⟨hm.priced, iff_of_true hm trivial⟩
  | deleteCostModelVersion =>
    exact (hsame ((@version_commands_keep s.today _ _).2.1 hok)).imp_right fun hm =>
      ⟨hm.priced, iff_of_true hm trivial⟩
  | createProductionCostBasisVersion =>
    exact (hsame (version_commands_keep.2.2.1 hok)).imp_right fun hm =>
      ⟨hm.priced, iff_of_true hm trivial⟩
  | deleteProductionCostBasisVersion =>
    exact (hsame ((@version_commands_keep s.today _ _).2.2.2 hok)).imp_right fun hm =>
      ⟨hm.priced, iff_of_true hm trivial⟩
  | setItemValuation =>
    exact (hvaluation (setItemValuation_superseding h hok)).imp_right fun hm =>
      ⟨hm.priced, iff_of_true hm trivial⟩
  | writeItemValuation =>
    exact (hvaluation (writeItemValuation_superseding h hok)).imp_right fun hm =>
      ⟨hm.priced, iff_of_true hm trivial⟩
  | deleteItemValuation =>
    exact (hvaluation (deleteItemValuation_superseding h hok)).imp_right fun hm =>
      ⟨hm.priced, iff_of_true hm trivial⟩
  | commitItemCostEvaluation =>
    obtain ⟨hs, hp, hm⟩ := commit_superseding h hok
    exact ⟨hs, hp, hm.trans (iff_of_true (fun _ source terms hsource => by cases hsource) trivial)⟩
  | createItemCostProjection =>
    obtain ⟨source, -, hok⟩ := bind_eq_ok.mp hok
    obtain ⟨hs, hp, hm⟩ := commit_superseding h hok
    exact ⟨hs, hp, hm.trans (iff_of_true (fun hkind => by cases hkind) trivial)⟩
  | deleteItemCostProjection =>
    obtain ⟨hs, hids⟩ := deleteItemCostProjection_superseding h hok
    have hm := newMirrored_of_ids hids
    exact ⟨hs, hm.priced, iff_of_true hm trivial⟩
  | promoteItemCostProjection workspaceId clientId newId newValuationId =>
    obtain ⟨projection, hfind, hok⟩ := bind_eq_ok.mp hok
    obtain ⟨hs, hp, hm⟩ := commit_superseding h hok
    refine ⟨hs, hp, hm.trans ?_⟩
    rw [SameCurrency]
    dsimp only
    rw [getOr_eq_ok.mp hfind]
    constructor
    · rintro hall p ⟨⟩
      exact hall rfl _ _ rfl
    · rintro hall - source terms ⟨⟩
      exact hall _ rfl
  | autoCommitItemCostEvaluation =>
    obtain ⟨item, -, hok⟩ := bind_eq_ok.mp hok
    dsimp only at hok
    split at hok
    · obtain ⟨hs, hp, hm⟩ := commit_superseding h hok
      exact ⟨hs, hp, hm.trans
        (iff_of_true (fun _ source terms hsource => by cases hsource) trivial)⟩
    · have hdb : s.db = s'.db := Except.ok.inj hok
      rw [← hdb]
      have hm : NewMirrored s.db s.db := newMirrored_of_ids rfl
      exact ⟨h, hm.priced, iff_of_true hm trivial⟩
  | writeElsewhere groups items tasks taskItems =>
    have hdb := (Except.ok.inj hok).symm
    exact (hsame ⟨by rw [hdb], by rw [hdb]⟩).imp_right fun hm => ⟨hm.priced, iff_of_true hm trivial⟩

theorem run_superseding {s : State} (h : Superseding s.db) (calls : List Call) :
    Superseding (run step s calls).db :=
  run_invariant (fun s => Superseding s.db)
    (fun _ _ _ hs hok => (step_superseding hs hok).1) h calls

/-- In every state of a run a task has at most one current evaluation, to which its superseded ones
lead, and an item at most one current valuation; every evaluation that is committed has its price
and cost mirrored, and its currency too if and only if no projection is promoted in another currency
than that of the valuation. -/
theorem commits_mirrored_iff {s : State} (h : Superseding s.db) (calls : List Call) :
    (∀ before after, calls = before ++ after → Superseding (run step s before).db) ∧
      (∀ before call after s', calls = before ++ call :: after →
        step (run step s before) call = .ok s' → NewPriced (run step s before).db s'.db) ∧
      ((∀ before call after s', calls = before ++ call :: after →
          step (run step s before) call = .ok s' → NewMirrored (run step s before).db s'.db) ↔
        Meets step SameCurrency s calls) := by
  have hsteps : ∀ before call s', step (run step s before) call = .ok s' →
      NewPriced (run step s before).db s'.db ∧
        (NewMirrored (run step s before).db s'.db ↔ SameCurrency (run step s before) call) :=
    fun before _ _ hok => (step_superseding (run_superseding h before) hok).2
  refine ⟨fun before _ _ => run_superseding h before,
    fun before call _ s' _ hok => (hsteps before call s' hok).1, ?_⟩
  rw [meets_iff]
  exact forall₄_congr fun before call after s' => forall₂_congr fun _ hok =>
    (hsteps before call s' hok).2

theorem superseding_emptyDb : Superseding emptyDb := ⟨chained_nil, chained_nil⟩

/-- A task with a wooden item, whose workspace computes in euro. -/
def configured : List Call :=
  [⟨0, .writeElsewhere [⟨"g", "w", .wood, false⟩] [⟨"i", "w", some "wood", false⟩]
      [⟨"t", "w", .pending, false⟩] [⟨"w", "t", "i", .primary, false⟩]⟩,
    createModel "m" 1,
    ⟨0, .createProductionCostBasisVersion "w" "b" ⟨"g", some 1, 100000, .euro, 160, 80⟩⟩]

/-- The item is valued in euro, a projection is stored, the item is valued in kroner, and the
projection is promoted. -/
def promotedLate : List Call :=
  configured ++
    [⟨0, .setItemValuation "w" "i" "v1" (some 1000) none .euro⟩,
      ⟨0, .createItemCostProjection "w" "t" "p" .scratch none none none⟩,
      ⟨0, .setItemValuation "w" "i" "v2" (some 2000) none .danishKrona⟩,
      ⟨0, .promoteItemCostProjection "w" "p" "e" "v3"⟩]

theorem commits_mirrored_iff_promoted :
    (∀ before after, promotedLate = before ++ after →
        Superseding (run step ⟨10, emptyDb⟩ before).db) ∧
      (∀ before call after s', promotedLate = before ++ call :: after →
        step (run step ⟨10, emptyDb⟩ before) call = .ok s' →
          NewPriced (run step ⟨10, emptyDb⟩ before).db s'.db) ∧
      ((∀ before call after s', promotedLate = before ++ call :: after →
          step (run step ⟨10, emptyDb⟩ before) call = .ok s' →
            NewMirrored (run step ⟨10, emptyDb⟩ before).db s'.db) ↔
        Meets step SameCurrency ⟨10, emptyDb⟩ promotedLate) :=
  commits_mirrored_iff superseding_emptyDb promotedLate

/-- The promoted evaluation is in euro, the valuation that mirrors it in kroner. -/
theorem promoted_in_other_currency :
    let s := run step ⟨10, emptyDb⟩ promotedLate
    (s.db.evaluations.filter fun e => e.isCurrent).map (fun e =>
        (e.clientId, e.itemId, e.expectedSalePriceMinor, e.currency)) =
        [("e", "i", some 1000, .euro)] ∧
      (currentValuation "w" "i" s.db.valuations).map (fun v =>
        (v.clientId, v.expectedSalePriceMinor, v.currency)) =
          some ("v3", some 1000, .danishKrona) := by
  decide +kernel

end BeyoManager.ItemEconomics
