import BeyoManager.StockReport.EventCoalescing

/-! # Replaying coalesced events

The coalesced list has one event for each key, the last one, unless it is an update that
the request makes pointless. A board that replays it holds, for the rows and snapshots
that the request neither creates nor deletes, what it would hold after every event.
-/

namespace BeyoManager.StockReport.EventCoalescing

open LastWins Grouping

variable {P : Type} {events : List (WorkspaceEvent P)} {event : WorkspaceEvent P} {id : String}

section Registers

theorem writeValues_updated (values : String → Option P) (extra : P) :
    writeValues values id "updated" extra id = some extra := by
  simp [writeValues]

theorem writeValues_of_ne {values : String → Option P} {other kind : String} {extra : P}
    (hupdated : ¬ (other = id ∧ kind = "updated")) (hdeleted : ¬ (other = id ∧ kind = "deleted")) :
    writeValues values other kind extra id = values id := by
  unfold writeValues
  split
  · rename_i hkind
    exact Function.update_of_ne (fun he => hupdated ⟨he.symm, hkind⟩) _ _
  · split
    · rename_i hkind
      exact Function.update_of_ne (fun he => hdeleted ⟨he.symm, hkind⟩) _ _
    · rfl

/-- The values of a row that is not deleted are those of its last update. -/
theorem rows_replay (hdeleted : ¬ Carries events (.row id "deleted")) (board : BoardValues P) :
    (board.replay events).rows id =
      ((last? coalesceKey events (.row id "updated")).map fun e => some e.extra).getD
        (board.rows id) := by
  apply foldl_register (fun board : BoardValues P => board.rows id)
  · intro board e _ hkey
    simp only [BoardValues.apply, hkey]
    exact writeValues_updated _ _
  · intro board e he hkey
    unfold BoardValues.apply
    cases hk : coalesceKey e with
    | row other kind =>
      rw [hk] at hkey
      refine writeValues_of_ne ?_ ?_
      · rintro ⟨rfl, rfl⟩
        exact hkey rfl
      · rintro ⟨rfl, rfl⟩
        exact hdeleted ⟨e, he, hk⟩
    | snapshot other kind => rfl
    | assignment other kind => rfl
    | other identity => rfl

/-- The values of a snapshot that is not deleted are those of its last update. -/
theorem snapshots_replay (hdeleted : ¬ Carries events (.snapshot id "deleted"))
    (board : BoardValues P) :
    (board.replay events).snapshots id =
      ((last? coalesceKey events (.snapshot id "updated")).map fun e => some e.extra).getD
        (board.snapshots id) := by
  apply foldl_register (fun board : BoardValues P => board.snapshots id)
  · intro board e _ hkey
    simp only [BoardValues.apply, hkey]
    exact writeValues_updated _ _
  · intro board e he hkey
    unfold BoardValues.apply
    cases hk : coalesceKey e with
    | row other kind => rfl
    | snapshot other kind =>
      rw [hk] at hkey
      refine writeValues_of_ne ?_ ?_
      · rintro ⟨rfl, rfl⟩
        exact hkey rfl
      · rintro ⟨rfl, rfl⟩
        exact hdeleted ⟨e, he, hk⟩
    | assignment other kind => rfl
    | other identity => rfl

end Registers

section Coalesced

variable {rowOf : P → Option String} {initialRowValues initialSnapshotValues : String → Option P}
  {key : CoalesceKey}

/-- The last update of a register, after coalescing: the register ends with the same values when
an update that is dropped repeats the baseline. -/
theorem getD_last?_compact {keep : WorkspaceEvent P → Bool} {baseline : Option P}
    (hdropped : ∀ e, last? coalesceKey events key = some e → keep e = false →
      baseline = some e.extra) :
    ((last? coalesceKey (compact coalesceKey keep events) key).map fun e => some e.extra).getD
        baseline =
      ((last? coalesceKey events key).map fun e => some e.extra).getD baseline := by
  rw [last?_compact]
  cases hlast : last? coalesceKey events key with
  | none => rfl
  | some e =>
    cases hkeep : keep e with
    | true => simp [Option.filter, hkeep]
    | false => simp [Option.filter, hkeep, hdropped e hlast hkeep]

theorem carries_of_compact {keep : WorkspaceEvent P → Bool}
    (h : Carries (compact coalesceKey keep events) key) : Carries events key := by
  obtain ⟨e, he, hkey⟩ := h
  exact ⟨e, mem_of_last? (mem_compact.mp he).1, hkey⟩

variable [DecidableEq P]

theorem carries_row_compact {kind : String} (hkind : kind ≠ "updated") :
    Carries (compact coalesceKey
      (isKept rowOf initialRowValues initialSnapshotValues events) events)
      (.row id kind) ↔ Carries events (.row id kind) := by
  constructor
  · exact carries_of_compact
  · intro h
    have hmem : CoalesceKey.row id kind ∈ keys coalesceKey events := mem_keys.mpr h
    obtain ⟨e, he⟩ := exists_last?_of_mem hmem
    have hkey := key_of_last? he
    refine ⟨e, mem_compact.mpr ⟨hkey ▸ he, isKept_of_ne ?_ ?_⟩, hkey⟩
    · intro other heq
      rw [hkey] at heq
      exact hkind (CoalesceKey.row.inj heq).2
    · intro other heq
      simp [hkey] at heq

theorem isKept_compact :
    isKept rowOf initialRowValues initialSnapshotValues
        (compact coalesceKey (isKept rowOf initialRowValues initialSnapshotValues events) events)
        event ↔
      isKept rowOf initialRowValues initialSnapshotValues events event := by
  by_cases hrow : ∃ id, coalesceKey event = .row id "updated"
  · obtain ⟨id, hkey⟩ := hrow
    rw [isKept_row_updated hkey, isKept_row_updated hkey, carries_row_compact (by decide),
      carries_row_compact (by decide)]
  by_cases hsnapshot : ∃ id, coalesceKey event = .snapshot id "updated"
  · obtain ⟨id, hkey⟩ := hsnapshot
    simp only [isKept_snapshot_updated hkey,
      carries_row_compact (show "deleted" ≠ "updated" by decide)]
  · push Not at hrow hsnapshot
    exact iff_of_true (isKept_of_ne hrow hsnapshot) (isKept_of_ne hrow hsnapshot)

end Coalesced

section Unchanged

variable {initialRowValues initialSnapshotValues : String → Option EventPayload}
  {events : List (WorkspaceEvent EventPayload)}

theorem rowUpdated_notMem {row : StockReportItem} (identity : ℕ) (workspaceId : String)
    (h : initialRowValues row.clientId = some (.row (rowValues row))) :
    buildStockReportItemUpdatedEvent identity workspaceId row ∉
      coalesceStockReportEvents EventPayload.stockReportItemId initialRowValues
        initialSnapshotValues events := by
  rw [coalesceStockReportEvents_eq, mem_compact,
    isKept_row_updated (coalesceKey_rowUpdated identity workspaceId row)]
  rintro ⟨-, hne, -⟩
  exact hne h

theorem snapshotUpdated_notMem {snapshot : ItemSnapshot} (identity : ℕ) (workspaceId : String)
    (h : initialSnapshotValues snapshot.clientId = some (.snapshot (snapshotValues snapshot))) :
    buildStockReportItemSnapshotUpdatedEvent identity workspaceId snapshot ∉
      coalesceStockReportEvents EventPayload.stockReportItemId initialRowValues
        initialSnapshotValues events := by
  rw [coalesceStockReportEvents_eq, mem_compact,
    isKept_snapshot_updated (coalesceKey_snapshotUpdated identity workspaceId snapshot)]
  rintro ⟨-, hne, -⟩
  exact hne h

end Unchanged

section Request

def IsLast (events : List (WorkspaceEvent P)) (event : WorkspaceEvent P) : Prop :=
  ∃ before after, events = before ++ event :: after ∧
    ∀ e ∈ after, coalesceKey e ≠ coalesceKey event

theorem isLast_iff : IsLast events event ↔
    last? coalesceKey events (coalesceKey event) = some event := by
  rw [last?_eq_some_iff]
  simp [IsLast]

variable [DecidableEq P] (rowOf : P → Option String)
  (initialRowValues initialSnapshotValues : String → Option P) (events)

/-- What coalescing keeps, in what order, and what a board makes of it. -/
structure NetChange (net : List (WorkspaceEvent P)) : Prop where
  distinct : (net.map coalesceKey).Nodup
  order : List.Sublist (net.map coalesceKey) (keys coalesceKey events)
  row_updated : ∀ id event, coalesceKey event = .row id "updated" → (event ∈ net ↔
    IsLast events event ∧ initialRowValues id ≠ some event.extra ∧
      ¬ Carries events (.row id "created") ∧ ¬ Carries events (.row id "deleted"))
  snapshot_updated : ∀ id event, coalesceKey event = .snapshot id "updated" → (event ∈ net ↔
    IsLast events event ∧ initialSnapshotValues id ≠ some event.extra ∧
      ∀ row ∈ rowOf event.extra, ¬ Carries events (.row row "deleted"))
  rest : ∀ event, (∀ id, coalesceKey event ≠ .row id "updated") →
    (∀ id, coalesceKey event ≠ .snapshot id "updated") → (event ∈ net ↔ IsLast events event)
  rows : ∀ id, ¬ Carries events (.row id "created") → ¬ Carries events (.row id "deleted") →
    (BoardValues.replay ⟨initialRowValues, initialSnapshotValues⟩ net).rows id =
      (BoardValues.replay ⟨initialRowValues, initialSnapshotValues⟩ events).rows id
  snapshots : ∀ id, ¬ Carries events (.snapshot id "deleted") →
    (∀ event, IsLast events event → coalesceKey event = .snapshot id "updated" →
      ∀ row ∈ rowOf event.extra, ¬ Carries events (.row row "deleted")) →
    (BoardValues.replay ⟨initialRowValues, initialSnapshotValues⟩ net).snapshots id =
      (BoardValues.replay ⟨initialRowValues, initialSnapshotValues⟩ events).snapshots id

/-- Coalescing keeps the net change of a request, and coalescing twice is coalescing once. -/
theorem coalesce_netChange :
    NetChange events rowOf initialRowValues initialSnapshotValues
        (coalesceStockReportEvents rowOf initialRowValues initialSnapshotValues events) ∧
      coalesceStockReportEvents rowOf initialRowValues initialSnapshotValues
          (coalesceStockReportEvents rowOf initialRowValues initialSnapshotValues events) =
        coalesceStockReportEvents rowOf initialRowValues initialSnapshotValues events := by
  rw [coalesceStockReportEvents_eq, coalesceStockReportEvents_eq]
  constructor
  · constructor
    case distinct => exact nodup_map_key_compact
    case order =>
      rw [map_key_compact]
      exact List.filter_sublist
    case row_updated =>
      intro id event hkey
      rw [mem_compact, isLast_iff, isKept_row_updated hkey]
    case snapshot_updated =>
      intro id event hkey
      rw [mem_compact, isLast_iff, isKept_snapshot_updated hkey]
    case rest =>
      intro event hrow hsnapshot
      rw [mem_compact, isLast_iff, and_iff_left (isKept_of_ne hrow hsnapshot)]
    case rows =>
      intro id hcreated hdeleted
      rw [rows_replay (fun h => hdeleted (carries_of_compact h)), rows_replay hdeleted]
      apply getD_last?_compact
      intro e hlast hdropped
      by_contra hne
      have hkept : isKept rowOf initialRowValues initialSnapshotValues events e :=
        (isKept_row_updated (key_of_last? hlast)).mpr ⟨hne, hcreated, hdeleted⟩
      simp [hkept] at hdropped
    case snapshots =>
      intro id hdeleted hsurvives
      rw [snapshots_replay (fun h => hdeleted (carries_of_compact h)), snapshots_replay hdeleted]
      apply getD_last?_compact
      intro e hlast hdropped
      by_contra hne
      have hkey := key_of_last? hlast
      have hlives := hsurvives e (isLast_iff.mpr (hkey ▸ hlast)) hkey
      have hkept : isKept rowOf initialRowValues initialSnapshotValues events e :=
        (isKept_snapshot_updated hkey).mpr ⟨hne, hlives⟩
      simp [hkept] at hdropped
  · apply compact_compact
    intro event hmem
    exact isKept_compact.mpr (mem_compact.mp hmem).2

/-- A row that the request creates and then updates: a board that starts from the baselines and
sees the coalesced list never learns the values. -/
theorem created_row_misses_update :
    let created : WorkspaceEvent ℕ := ⟨0, "stock_report_item:created", "row", "workspace", 0⟩
    let updated : WorkspaceEvent ℕ := ⟨1, "stock_report_item:updated", "row", "workspace", 5⟩
    let board : BoardValues ℕ := ⟨fun _ => none, fun _ => none⟩
    (board.replay [created, updated]).rows "row" = some 5 ∧
      (board.replay (coalesceStockReportEvents (fun _ => none) (fun _ => none) (fun _ => none)
        [created, updated])).rows "row" = none := by
  decide +kernel

end Request

end BeyoManager.StockReport.EventCoalescing
