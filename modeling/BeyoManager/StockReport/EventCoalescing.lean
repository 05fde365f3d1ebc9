import BeyoManager.Library.LastWins
import BeyoManager.StockReport.Tables

/-! # Coalescing the events of a request

A request that touches a row or a snapshot several times reports the net change. The
loop of the source keeps the last event of every key and drops the updates that a board
need not see. A board that replays the rest ends with the same values.
-/

namespace BeyoManager.StockReport.EventCoalescing

open LastWins Grouping Sorting

/-- `WorkspaceEvent`; `identity` is that of the object, `extra` a dictionary. -/
structure WorkspaceEvent (P : Type) where
  identity : ℕ
  eventName : String
  clientId : String
  workspaceId : String
  extra : P
  deriving DecidableEq, Repr

/-- The keys of `_coalesce_key`. -/
inductive CoalesceKey
  | row (clientId kind : String)
  | snapshot (clientId kind : String)
  | assignment (clientId kind : String)
  | other (identity : ℕ)
  deriving DecidableEq, Repr

section Names

/-- `name.startswith(start)`. -/
def startsWith (name start : String) : Bool := start.toList.isPrefixOf name.toList

/-- `name.rsplit(":", 1)[1]`, of a name with a colon. -/
def kindOf (name : String) : String :=
  String.ofList (name.toList.reverse.takeWhile (· ≠ ':')).reverse

end Names

variable {P : Type}

/-- `_coalesce_key`. -/
def coalesceKey (event : WorkspaceEvent P) : CoalesceKey :=
  if startsWith event.eventName "stock_report_item:" then
    .row event.clientId (kindOf event.eventName)
  else if startsWith event.eventName "stock_report_item_snapshot:" then
    .snapshot event.clientId (kindOf event.eventName)
  else if startsWith event.eventName "stock_task_assignment:" then
    .assignment event.clientId (kindOf event.eventName)
  else .other event.identity

section Payloads

/-- `extra` of a `stock_report_item:updated`. -/
structure RowPayload where
  quantityRequested : ℤ
  quantityInQueue : ℤ
  quantityInProgress : ℤ
  quantityAwaiting : ℤ
  deriving DecidableEq, Repr

/-- `extra` of a `stock_report_item_snapshot:updated`; the priority is the enum's value. -/
structure SnapshotPayload where
  stockReportItemId : ClientId
  versionId : ClientId
  priority : Option String
  priorityOrder : Option ℤ
  quantityMissing : Option ℤ
  quantityResolved : ℤ
  quantityRequestedScanner : Option ℤ
  quantityRequestedManual : Option ℤ
  deriving DecidableEq, Repr

inductive EventPayload
  | empty
  | row (values : RowPayload)
  | snapshot (values : SnapshotPayload)
  | assignment (stockReportItemId taskId : ClientId) (state : String)
  deriving DecidableEq, Repr

/-- `extra.get("stock_report_item_id")`. -/
def EventPayload.stockReportItemId : EventPayload → Option ClientId
  | .empty => none
  | .row _ => none
  | .snapshot values => some values.stockReportItemId
  | .assignment stockReportItemId _ _ => some stockReportItemId

/-- `row_values`. -/
def rowValues (row : StockReportItem) : RowPayload where
  quantityRequested := row.quantityRequested
  quantityInQueue := row.counters.quantityInQueue
  quantityInProgress := row.counters.quantityInProgress
  quantityAwaiting := row.counters.quantityAwaiting

/-- `snapshot_values`. -/
def snapshotValues (snapshot : ItemSnapshot) : SnapshotPayload where
  stockReportItemId := snapshot.stockReportItemId
  versionId := snapshot.versionId
  priority := snapshot.priority.map StockReportPriority.value
  priorityOrder := snapshot.priorityOrder
  quantityMissing := snapshot.quantityMissing
  quantityResolved := snapshot.quantityResolved
  quantityRequestedScanner := snapshot.quantityRequestedScanner
  quantityRequestedManual := snapshot.quantityRequestedManual

/-- `build_stock_report_item_updated_event`, of the columns of a row. -/
def buildStockReportItemUpdatedEvent (identity : ℕ) (workspaceId : String)
    (row : StockReportItem) : WorkspaceEvent EventPayload where
  identity := identity
  eventName := "stock_report_item:updated"
  clientId := row.clientId
  workspaceId := workspaceId
  extra := .row {
    quantityRequested := row.quantityRequested
    quantityInQueue := row.counters.quantityInQueue
    quantityInProgress := row.counters.quantityInProgress
    quantityAwaiting := row.counters.quantityAwaiting }

/-- `build_stock_report_item_snapshot_updated_event`, of the columns of a snapshot. -/
def buildStockReportItemSnapshotUpdatedEvent (identity : ℕ) (workspaceId : String)
    (snapshot : ItemSnapshot) : WorkspaceEvent EventPayload where
  identity := identity
  eventName := "stock_report_item_snapshot:updated"
  clientId := snapshot.clientId
  workspaceId := workspaceId
  extra := .snapshot {
    stockReportItemId := snapshot.stockReportItemId
    versionId := snapshot.versionId
    priority := snapshot.priority.map StockReportPriority.value
    priorityOrder := snapshot.priorityOrder
    quantityMissing := snapshot.quantityMissing
    quantityResolved := snapshot.quantityResolved
    quantityRequestedScanner := snapshot.quantityRequestedScanner
    quantityRequestedManual := snapshot.quantityRequestedManual }

theorem coalesceKey_rowUpdated (identity : ℕ) (workspaceId : String) (row : StockReportItem) :
    coalesceKey (buildStockReportItemUpdatedEvent identity workspaceId row) =
      .row row.clientId "updated" := by
  have hname : startsWith "stock_report_item:updated" "stock_report_item:" = true ∧
      kindOf "stock_report_item:updated" = "updated" := by decide +kernel
  simp [coalesceKey, buildStockReportItemUpdatedEvent, hname]

theorem coalesceKey_snapshotUpdated (identity : ℕ) (workspaceId : String)
    (snapshot : ItemSnapshot) :
    coalesceKey (buildStockReportItemSnapshotUpdatedEvent identity workspaceId snapshot) =
      .snapshot snapshot.clientId "updated" := by
  have hname : startsWith "stock_report_item_snapshot:updated" "stock_report_item:" = false ∧
      startsWith "stock_report_item_snapshot:updated" "stock_report_item_snapshot:" = true ∧
      kindOf "stock_report_item_snapshot:updated" = "updated" := by decide +kernel
  simp [coalesceKey, buildStockReportItemSnapshotUpdatedEvent, hname]

end Payloads

section Loop

/-- The dictionaries and sets that the loop fills. -/
structure Collected (P : Type) where
  lastByKey : List (CoalesceKey × WorkspaceEvent P)
  firstIndex : List (CoalesceKey × ℕ)
  rowCreated : List String
  rowDeleted : List String

def Collected.empty : Collected P := ⟨[], [], [], []⟩

def Collected.visit (collected : Collected P) (event : WorkspaceEvent P) (index : ℕ) :
    Collected P :=
  let key := coalesceKey event
  { lastByKey := Dict.set collected.lastByKey key event
    firstIndex := Dict.setDefault collected.firstIndex key index
    rowCreated := if key = .row event.clientId "created" then
        collected.rowCreated.insert event.clientId
      else collected.rowCreated
    rowDeleted := if key = .row event.clientId "deleted" then
        collected.rowDeleted.insert event.clientId
      else collected.rowDeleted }

def collect (events : List (WorkspaceEvent P)) : Collected P :=
  events.zipIdx.foldl (fun collected (event, index) => collected.visit event index) .empty

variable [DecidableEq P] (rowOf : P → Option String)

/-- The branches that `continue`: an update that a board need not see. `rowOf` is
`extra.get("stock_report_item_id")`. -/
def isDropped (rowCreated rowDeleted : List String)
    (initialRowValues initialSnapshotValues : String → Option P) (key : CoalesceKey)
    (event : WorkspaceEvent P) : Bool :=
  match key with
  | .row clientId kind => kind == "updated" && (rowCreated.contains clientId ||
      rowDeleted.contains clientId || decide (initialRowValues clientId = some event.extra))
  | .snapshot clientId kind => kind == "updated" &&
      ((rowOf event.extra).any rowDeleted.contains ||
        decide (initialSnapshotValues clientId = some event.extra))
  | _ => false

/-- `first_index[key]`; every key of `last_by_key` has one. -/
def Collected.indexOf (collected : Collected P) (key : CoalesceKey) : ℕ :=
  ((collected.firstIndex.find? fun e => e.1 = key).map Prod.snd).getD 0

/-- `coalesce_stock_report_events`; a baseline is `none` where the dictionary has no entry. -/
def coalesceStockReportEvents (initialRowValues initialSnapshotValues : String → Option P)
    (events : List (WorkspaceEvent P)) : List (WorkspaceEvent P) :=
  let collected := collect events
  (sortBy collected.indexOf (collected.lastByKey.map Prod.fst)).filterMap fun key =>
    ((collected.lastByKey.find? fun e => e.1 = key).map Prod.snd).filter fun event =>
      !isDropped rowOf collected.rowCreated collected.rowDeleted initialRowValues
        initialSnapshotValues key event

end Loop

section Board

structure BoardValues (P : Type) where
  rows : String → Option P
  snapshots : String → Option P

/-- An update replaces the values that are held, a deletion drops them; a `:created` has none. -/
def writeValues (values : String → Option P) (clientId kind : String) (extra : P) :
    String → Option P :=
  if kind = "updated" then Function.update values clientId (some extra)
  else if kind = "deleted" then Function.update values clientId none
  else values

def BoardValues.apply (board : BoardValues P) (event : WorkspaceEvent P) : BoardValues P :=
  match coalesceKey event with
  | .row clientId kind =>
    { board with rows := writeValues board.rows clientId kind event.extra }
  | .snapshot clientId kind =>
    { board with snapshots := writeValues board.snapshots clientId kind event.extra }
  | _ => board

def BoardValues.replay (board : BoardValues P) (events : List (WorkspaceEvent P)) :
    BoardValues P :=
  events.foldl BoardValues.apply board

end Board

section Collected

variable {events : List (WorkspaceEvent P)} {event : WorkspaceEvent P} {id kind : String}
  {key : CoalesceKey}

theorem clientId_of_coalesceKey_row (h : coalesceKey event = .row id kind) :
    event.clientId = id := by
  unfold coalesceKey at h
  split at h
  · exact (CoalesceKey.row.inj h).1
  · split at h
    · simp at h
    · split at h <;> simp at h

def Carries (events : List (WorkspaceEvent P)) (key : CoalesceKey) : Prop :=
  ∃ event ∈ events, coalesceKey event = key

theorem collect_append_singleton :
    collect (events ++ [event]) = (collect events).visit event events.length := by
  simp [collect, List.zipIdx_append, List.foldl_append]

theorem lastByKey_collect : (collect events).lastByKey = lastByKey coalesceKey events := by
  induction events using List.reverseRecOn with
  | nil => rfl
  | append_singleton events event ih =>
    rw [collect_append_singleton, lastByKey, List.foldl_append, ← lastByKey, ← ih]
    rfl

/-- The index of a key is the position of its first event. -/
theorem indexOf_collect (h : key ∈ keys coalesceKey events) :
    (collect events).indexOf key = (events.map coalesceKey).idxOf key := by
  have hfind : ∀ events : List (WorkspaceEvent P),
      (collect events).firstIndex.find? (fun e => e.1 = key) =
        if key ∈ events.map coalesceKey then some (key, (events.map coalesceKey).idxOf key)
        else none := by
    intro events
    induction events using List.reverseRecOn with
    | nil => rfl
    | append_singleton events event ih =>
      rw [collect_append_singleton]
      change (Dict.setDefault (collect events).firstIndex _ _).find? _ = _
      rw [Dict.find?_setDefault, ih, List.map_append]
      by_cases hin : key ∈ events.map coalesceKey
      · rw [if_pos hin, if_pos (List.mem_append_left _ hin), List.idxOf_append_of_mem hin]
        rfl
      · rw [if_neg hin, Option.none_or]
        by_cases heq : coalesceKey event = key
        · subst heq
          rw [if_pos rfl, if_pos (by simp), List.idxOf_append_of_notMem hin]
          simp
        · have hnot : key ∉ events.map coalesceKey ++ [event].map coalesceKey := by
            simpa [Ne.symm heq] using hin
          rw [if_neg heq, if_neg hnot]
  rw [Collected.indexOf, hfind, if_pos (List.mem_eraseDups.mp h)]
  rfl

/-- A set of the loop that collects the rows with an event of one kind. -/
theorem mem_rows_collect {rows : Collected P → List String} (hempty : rows .empty = [])
    (hvisit : ∀ collected event index, rows (Collected.visit collected event index) =
      if coalesceKey event = .row event.clientId kind then
        (rows collected).insert event.clientId
      else rows collected) :
    id ∈ rows (collect events) ↔ Carries events (.row id kind) := by
  induction events using List.reverseRecOn with
  | nil =>
    change id ∈ rows .empty ↔ _
    simp [hempty, Carries]
  | append_singleton events event ih =>
    rw [collect_append_singleton, hvisit]
    simp only [Carries, List.mem_append, List.mem_singleton] at ih ⊢
    constructor
    · intro h
      split at h
      · rename_i hkey
        rcases List.mem_insert_iff.mp h with rfl | h
        · exact ⟨event, .inr rfl, hkey⟩
        · obtain ⟨e, he, hk⟩ := ih.mp h
          exact ⟨e, .inl he, hk⟩
      · obtain ⟨e, he, hk⟩ := ih.mp h
        exact ⟨e, .inl he, hk⟩
    · rintro ⟨e, he | rfl, hk⟩
      · have hmem := ih.mpr ⟨e, he, hk⟩
        split
        · exact List.mem_insert_of_mem hmem
        · exact hmem
      · obtain rfl := clientId_of_coalesceKey_row hk
        rw [if_pos hk]
        exact List.mem_insert_self

theorem mem_rowCreated_collect :
    id ∈ (collect events).rowCreated ↔ Carries events (.row id "created") :=
  mem_rows_collect rfl fun _ _ _ => rfl

theorem mem_rowDeleted_collect :
    id ∈ (collect events).rowDeleted ↔ Carries events (.row id "deleted") :=
  mem_rows_collect rfl fun _ _ _ => rfl

end Collected

section Compaction

variable [DecidableEq P] (rowOf : P → Option String)
  (initialRowValues initialSnapshotValues : String → Option P)
  {events : List (WorkspaceEvent P)} {event : WorkspaceEvent P} {id : String}

/-- The event is not dropped in a request with these events. -/
def isKept (events : List (WorkspaceEvent P)) (event : WorkspaceEvent P) : Bool :=
  !isDropped rowOf (collect events).rowCreated (collect events).rowDeleted initialRowValues
    initialSnapshotValues (coalesceKey event) event

/-- Coalescing is the compaction of the list to its last events that are not dropped. -/
theorem coalesceStockReportEvents_eq :
    coalesceStockReportEvents rowOf initialRowValues initialSnapshotValues events =
      compact coalesceKey (isKept rowOf initialRowValues initialSnapshotValues events) events := by
  have hsorted : sortBy (collect events).indexOf ((collect events).lastByKey.map Prod.fst) =
      keys coalesceKey events := by
    rw [lastByKey_collect, lastByKey_eq, map_fst_entries]
    apply List.Pairwise.insertionSort_eq
    refine pairwise_idxOf_keys.imp_of_mem ?_
    intro j k hj hk hlt
    rw [indexOf_collect hj, indexOf_collect hk]
    exact hlt.le
  unfold coalesceStockReportEvents compact
  simp only [hsorted]
  apply List.filterMap_congr
  intro key _
  rw [lastByKey_collect, find?_lastByKey, entryOf, Option.map_map]
  cases hlast : last? coalesceKey events key with
  | none => rfl
  | some event =>
    obtain rfl := key_of_last? hlast
    rfl

variable {rowOf initialRowValues initialSnapshotValues}

theorem isKept_row_updated (h : coalesceKey event = .row id "updated") :
    isKept rowOf initialRowValues initialSnapshotValues events event ↔
      initialRowValues id ≠ some event.extra ∧ ¬ Carries events (.row id "created") ∧
        ¬ Carries events (.row id "deleted") := by
  rw [← mem_rowCreated_collect, ← mem_rowDeleted_collect]
  simp only [isKept, isDropped, h]
  grind

theorem isKept_snapshot_updated (h : coalesceKey event = .snapshot id "updated") :
    isKept rowOf initialRowValues initialSnapshotValues events event ↔
      initialSnapshotValues id ≠ some event.extra ∧
        ∀ row ∈ rowOf event.extra, ¬ Carries events (.row row "deleted") := by
  simp only [← mem_rowDeleted_collect, isKept, isDropped, h]
  cases rowOf event.extra with
  | none => simp
  | some row =>
    simp
    tauto

theorem isKept_of_ne (hrow : ∀ id, coalesceKey event ≠ .row id "updated")
    (hsnapshot : ∀ id, coalesceKey event ≠ .snapshot id "updated") :
    isKept rowOf initialRowValues initialSnapshotValues events event := by
  unfold isKept
  cases hkey : coalesceKey event with
  | row id kind =>
    have hkind : kind ≠ "updated" := fun he => hrow id (he ▸ hkey)
    simp [isDropped, hkind]
  | snapshot id kind =>
    have hkind : kind ≠ "updated" := fun he => hsnapshot id (he ▸ hkey)
    simp [isDropped, hkind]
  | assignment id kind => rfl
  | other identity => rfl

end Compaction

end BeyoManager.StockReport.EventCoalescing
