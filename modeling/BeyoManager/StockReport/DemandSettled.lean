import BeyoManager.StockReport.DemandEffects

/-! # What a demand request leaves behind

Every identity that a request resolves has one live row with the requested quantity. Only rows that
rose have a goal record, and only drafts hold the new rows. The same request again writes nothing.
-/

namespace BeyoManager.StockReport

open Relational Sorting Transition

section Requested

variable (lower : String → String) (byKey : String → Option ClientId)
  (entries : List ParsedEntry)

/-- The quantity that the resolved entries ask for an identity. -/
def requestedQuantity (identity : Identity) : Option ℤ :=
  (entries.find? fun e =>
    decide (byKey (itemCategoryKey lower e.itemCategoryRaw) = some identity.1 ∧
      e.propertiesSignature = identity.2)).map ParsedEntry.quantityRequested

/-- A row as the request leaves it. -/
def settledRow (r : StockReportItem) : StockReportItem :=
  if r.isDeleted then r
  else { r with
    quantityRequested :=
      (requestedQuantity lower byKey entries (identityOf r)).getD r.quantityRequested }

end Requested

section Entries

variable {lower : String → String} {byKey : String → Option ClientId}
  {entries : List ParsedEntry} {byIdentity : List (Identity × DemandEntry)}

def resolvedEntry (lower : String → String) (byKey : String → Option ClientId) (e : ParsedEntry) :
    Option (Identity × DemandEntry) :=
  (byKey (itemCategoryKey lower e.itemCategoryRaw)).map fun c =>
    ((c, e.propertiesSignature), e.demandEntry lower)

theorem resolvedEntry_any (e : ParsedEntry) (identity : Identity) :
    (resolvedEntry lower byKey e).any (fun x => x.1 == identity) =
      decide (byKey (itemCategoryKey lower e.itemCategoryRaw) = some identity.1 ∧
        e.propertiesSignature = identity.2) := by
  obtain ⟨c, signature⟩ := identity
  rw [resolvedEntry, Bool.eq_iff_iff]
  cases byKey (itemCategoryKey lower e.itemCategoryRaw) with
  | none => simp
  | some d => simp [Prod.ext_iff]

theorem find?_resolved (identity : Identity) :
    ((entries.filterMap (resolvedEntry lower byKey)).find? fun x => x.1 == identity).map
      (fun x => x.2.quantityRequested) = requestedQuantity lower byKey entries identity := by
  rw [List.find?_filterMap, requestedQuantity]
  simp only [resolvedEntry_any]
  cases hfind : entries.find? fun e =>
      decide (byKey (itemCategoryKey lower e.itemCategoryRaw) = some identity.1 ∧
        e.propertiesSignature = identity.2) with
  | none => rfl
  | some e =>
    have hmatch := List.find?_some hfind
    rw [decide_eq_true_eq] at hmatch
    rw [Option.bind_some, resolvedEntry, hmatch.1]
    rfl

theorem demanded_eq_settledRow (h : byIdentity = entries.filterMap (resolvedEntry lower byKey))
    (r : StockReportItem) : demanded byIdentity r = settledRow lower byKey entries r := by
  rw [demanded, settledRow, ← find?_resolved, ← h]
  split
  · rfl
  · split
    · rename_i e he
      rw [he, Option.map_some, Option.getD_some]
    · rename_i he
      rw [he, Option.map_none, Option.getD_none]

end Entries

section Run

variable {lower sqlLower : String → String} {categories : List ItemCategory} {db db' : Db}
  {entries : List ParsedEntry} {now : Timestamp} {late : Bool}
  {newRowId newSnapshotId newHistoryId : ℕ → ClientId} {result : StockDemandResult}
  {byIdentity : List (Identity × DemandEntry)}

/-- The categories of a request under the keys of its texts. -/
def requestCategory (lower sqlLower : String → String) (categories : List ItemCategory)
    (entries : List ParsedEntry) : String → Option ClientId :=
  categoryByKey lower sqlLower categories (entries.map ParsedEntry.itemCategoryRaw)

def resolvedEntries (lower sqlLower : String → String) (categories : List ItemCategory)
    (entries : List ParsedEntry) : List (Identity × DemandEntry) :=
  entries.filterMap (resolvedEntry lower (requestCategory lower sqlLower categories entries))

theorem resolvedEntries_keys (hcategories : Keyed ItemCategory.clientId categories)
    (hdistinct : (entries.map (entryIdentity lower)).Nodup) :
    ((resolvedEntries lower sqlLower categories entries).map Prod.fst).Nodup := by
  have hkeys := @resolved_keys lower sqlLower categories entries hcategories hdistinct
    (entries.map ParsedEntry.itemCategoryRaw)
  rw [List.filterMap_map] at hkeys
  exact hkeys

theorem entriesByIdentity_resolved (hcategories : Keyed ItemCategory.clientId categories)
    (hdistinct : (entries.map (entryIdentity lower)).Nodup) :
    entriesByIdentity (requestCategory lower sqlLower categories entries)
        (entries.map (ParsedEntry.demandEntry lower)) =
      resolvedEntries lower sqlLower categories entries := by
  rw [entriesByIdentity, List.filterMap_map]
  exact Dict.ofList_eq_self (resolvedEntries_keys hcategories hdistinct)

/-- What a request writes. -/
theorem receiveStockDemand_eq_ok (hcategories : Keyed ItemCategory.clientId categories)
    (hdistinct : (entries.map (entryIdentity lower)).Nodup)
    (h : receiveStockDemand lower sqlLower categories db entries now late newRowId newSnapshotId
      newHistoryId = .ok (db', result)) :
    let byIdentity := resolvedEntries lower sqlLower categories entries
    let created := absentRows db byIdentity newRowId
    result.outcomes = demandOutcomes lower (requestCategory lower sqlLower categories entries)
        entries ∧
      Keyed StockReportItem.clientId (db.rows ++ created) ∧ ∃ drafted changes,
        addRowsToEveryDraft { db with rows := db.rows ++ created } created newSnapshotId =
          .ok drafted ∧
        demandChanges drafted byIdentity = .ok changes ∧
        insertHistories (writeDemand drafted changes)
          (((changes.filter fun c => decide (c.1.quantityRequested < c.2)).zipIdx).map
            (goalRecord (writeDemand drafted changes) now newHistoryId)) = .ok db' := by
  obtain ⟨events, -, h⟩ := bind_eq_ok.mp h
  obtain ⟨after, happly, h⟩ := bind_eq_ok.mp h
  obtain ⟨rfl, rfl⟩ := Prod.mk.inj (Except.ok.inj h)
  refine ⟨rfl, ?_⟩
  rw [← entriesByIdentity_resolved hcategories hdistinct]
  exact applyStockDemand_eq_ok happly

theorem demandChanges_settled (h : ∀ e ∈ byIdentity, ∃ r, discoverLiveRow db e.1 = some r ∧
    r.quantityRequested = e.2.quantityRequested) : demandChanges db byIdentity = .ok [] := by
  have hnonempty : Nonempty (StockReportItem × ℤ) := ⟨(⟨"", "", "", "", 0, 0, false⟩, 0)⟩
  have hlock : ∀ e ∈ byIdentity, ∃ c : StockReportItem × ℤ, (do
      let row ← getOr (CommandError.runtimeError "stock demand identity vanished under lock")
        (discoverLiveRow db e.1)
      pure (row, e.2.quantityRequested)) = .ok c ∧ c.2 = c.1.quantityRequested := by
    intro e he
    obtain ⟨r, hr, hq⟩ := h e he
    refine ⟨(r, e.2.quantityRequested), ?_, hq.symm⟩
    rw [hr]
    rfl
  obtain ⟨row, hrows, hsame⟩ := mapM_exists hlock
  rw [demandChanges, hrows]
  refine congrArg Except.ok (List.filter_eq_nil_iff.mpr fun c hc => ?_)
  obtain ⟨e, he, rfl⟩ := List.mem_map.mp hc
  simpa using hsame e he

/-- A request whose rows are there and settled writes nothing and has no event. -/
theorem receiveStockDemand_settled (hcategories : Keyed ItemCategory.clientId categories)
    (hdistinct : (entries.map (entryIdentity lower)).Nodup)
    (hids : Keyed StockReportItem.clientId db.rows)
    (hsnapshots : Keyed ItemSnapshot.clientId db.snapshots)
    (hhistories : Keyed HistoryRecord.clientId db.histories)
    (h : ∀ e ∈ resolvedEntries lower sqlLower categories entries, ∃ r,
      discoverLiveRow db e.1 = some r ∧ r.quantityRequested = e.2.quantityRequested) :
    receiveStockDemand lower sqlLower categories db entries now false newRowId newSnapshotId
        newHistoryId =
      .ok (db, ⟨demandOutcomes lower (requestCategory lower sqlLower categories entries) entries,
        []⟩) := by
  have habsent : absentRows db (resolvedEntries lower sqlLower categories entries) newRowId =
      [] := by
    have hnone : (resolvedEntries lower sqlLower categories entries).filter
        (fun e => (discoverLiveRow db e.1).isNone) = [] := by
      refine List.filter_eq_nil_iff.mpr fun e he => ?_
      obtain ⟨r, hr, -⟩ := h e he
      simp [hr]
    rw [absentRows, hnone]
    rfl
  have hinsert : insertRows db [] = .ok db := by
    rw [insertRows, insertRecords_eq_ok.mpr ⟨by rwa [List.append_nil], rfl⟩, List.append_nil]
    rfl
  have hnew : newDraftSnapshots db [] newSnapshotId = [] := by
    have hpairs : ∀ l : List SnapshotVersion, (l.flatMap fun d =>
        ([] : List StockReportItem).map fun r => (d.clientId, r)) = [] := by
      simp
    rw [newDraftSnapshots, hpairs]
    rfl
  have hdrafts : addRowsToEveryDraft db [] newSnapshotId = .ok db := by
    rw [addRowsToEveryDraft, hnew, insertSnapshots_eq_ok.mpr ⟨by rwa [List.append_nil], rfl⟩]
    simp [Except.bind, bind, pure, Except.pure]
  have hchanges := demandChanges_settled h
  have hwrite : writeDemand db [] = db := by
    simp [writeDemand]
  have hrecords : insertHistories db [] = .ok db := by
    refine insertHistories_eq_ok.mpr ⟨by rwa [List.append_nil], ?_⟩
    rw [List.append_nil]
  have hkeys : entriesByIdentity (requestCategory lower sqlLower categories entries)
      (entries.map (ParsedEntry.demandEntry lower)) = resolvedEntries lower sqlLower categories
        entries := entriesByIdentity_resolved hcategories hdistinct
  have hevents : demandEvents db (requestCategory lower sqlLower categories entries)
      (entries.map (ParsedEntry.demandEntry lower)) newRowId newSnapshotId = .ok [] := by
    rw [demandEvents, hkeys, habsent, hinsert]
    change (addRowsToEveryDraft db [] newSnapshotId >>= _) = _
    rw [hdrafts]
    change (demandChanges db _ >>= _) = _
    rw [hchanges]
    rfl
  have happly : applyStockDemand db (requestCategory lower sqlLower categories entries)
      (entries.map (ParsedEntry.demandEntry lower)) now false newRowId newSnapshotId
        newHistoryId = .ok db := by
    rw [applyStockDemand, hkeys, habsent, hinsert]
    change (addRowsToEveryDraft db [] newSnapshotId >>= _) = _
    rw [hdrafts]
    change (demandChanges db _ >>= _) = _
    rw [hchanges]
    change (insertHistories (writeDemand db []) [] >>= _) = _
    rw [hwrite, hrecords]
    rfl
  rw [requestCategory] at hevents happly
  rw [receiveStockDemand, hevents]
  change (applyStockDemand db _ _ now false _ _ _ >>= _) = _
  rw [happly]
  rfl

theorem addRowsToEveryDraft_eq_ok {created : List StockReportItem}
    (h : addRowsToEveryDraft db created newSnapshotId = .ok db') :
    Keyed ItemSnapshot.clientId db'.snapshots ∧ db'.rows = db.rows ∧
      db'.histories = db.histories ∧
      db'.snapshots = db.snapshots ++ newDraftSnapshots db created newSnapshotId := by
  simp only [addRowsToEveryDraft, bind_eq_ok, insertSnapshots_eq_ok, pure, Except.pure,
    Except.ok.injEq] at h
  obtain ⟨mid, ⟨hkeyed, rfl⟩, rfl⟩ := h
  exact ⟨hkeyed, rfl, rfl, rfl⟩

theorem mem_draftPairs {created : List StockReportItem} {pair : ClientId × StockReportItem} :
    pair ∈ draftPairs db created ↔
      (∃ v ∈ db.versions, versionIsDraft v ∧ v.clientId = pair.1) ∧ pair.2 ∈ created := by
  obtain ⟨versionId, r⟩ := pair
  simp only [draftPairs, List.mem_flatMap, mem_sortBy, List.mem_filter, List.mem_map,
    Prod.mk.injEq]
  constructor
  · rintro ⟨v, ⟨hv, hdraft⟩, r', hr', rfl, rfl⟩
    exact ⟨⟨v, hv, hdraft, rfl⟩, hr'⟩
  · rintro ⟨⟨v, hv, hdraft, rfl⟩, hr⟩
    exact ⟨v, ⟨hv, hdraft⟩, r, hr, rfl, rfl⟩

theorem goalRecords_spec {changes : List (StockReportItem × ℤ)} {g : HistoryRecord}
    (hg : g ∈ changes.zipIdx.map (goalRecord db now newHistoryId)) :
    g.type = .quantityRequestedChange ∧ g.quantityAwaiting = 0 ∧
      ∃ c ∈ changes, g.stockReportItemId = c.1.clientId ∧ g.quantityRequested = c.2 := by
  obtain ⟨⟨c, i⟩, hc, rfl⟩ := List.mem_map.mp hg
  have hmem : c ∈ changes := (List.mem_zipIdx' hc).2 ▸ List.getElem_mem _
  exact ⟨rfl, rfl, c, hmem, rfl, rfl⟩

theorem goalRecords_rows (changes : List (StockReportItem × ℤ)) :
    (changes.zipIdx.map (goalRecord db now newHistoryId)).map HistoryRecord.stockReportItemId =
      (changes.map Prod.fst).map StockReportItem.clientId := by
  rw [List.map_map, List.map_map]
  conv_rhs => rw [← List.zipIdx_map_fst 0 changes, List.map_map]
  rfl

end Run

section Found

variable {drafted after : Db} {byIdentity : List (Identity × DemandEntry)}

@[simp] theorem identityOf_demanded (r : StockReportItem) :
    identityOf (demanded byIdentity r) = identityOf r := by
  rw [demanded_eq]
  rfl

@[simp] theorem clientId_demanded (r : StockReportItem) :
    (demanded byIdentity r).clientId = r.clientId := by
  rw [demanded_eq]

@[simp] theorem isDeleted_demanded (r : StockReportItem) :
    (demanded byIdentity r).isDeleted = r.isDeleted := by
  rw [demanded_eq]

theorem liveIdentities_demanded (hrows : after.rows = drafted.rows.map (demanded byIdentity)) :
    liveIdentities after = (liveIdentities drafted).map (demanded byIdentity) := by
  rw [liveIdentities, hrows, List.filter_map, liveIdentities]
  congr 1
  exact List.filter_congr fun r _ => by simp

theorem keyed_demanded (hidentities : Keyed identityOf (liveIdentities drafted))
    (hrows : after.rows = drafted.rows.map (demanded byIdentity)) :
    Keyed identityOf (liveIdentities after) := by
  refine hidentities.of_map_eq ?_
  rw [liveIdentities_demanded hrows, List.map_map]
  exact List.map_congr_left fun r _ => identityOf_demanded r

theorem discoverLiveRow_demanded (hkeys : (byIdentity.map Prod.fst).Nodup)
    (hidentities : Keyed identityOf (liveIdentities drafted))
    (hrows : after.rows = drafted.rows.map (demanded byIdentity))
    {e : Identity × DemandEntry} (he : e ∈ byIdentity) {r : StockReportItem}
    (hr : discoverLiveRow drafted e.1 = some r) :
    discoverLiveRow after e.1 = some { r with quantityRequested := e.2.quantityRequested } := by
  obtain ⟨⟨hmem, hlive⟩, hident⟩ := (discoverLiveRow_eq_some hidentities).mp hr
  refine (discoverLiveRow_eq_some (keyed_demanded hidentities hrows)).mpr ⟨⟨?_, hlive⟩, hident⟩
  rw [hrows, ← demanded_of_mem hkeys he hlive hident]
  exact List.mem_map_of_mem hmem

end Found

section Settled

variable {lower sqlLower : String → String} {normalizeStockCriteria : JsonText → JsonText}
  {computeStockCriteriaSignature : JsonText → String} {categories : List ItemCategory}
  {db db' : Db} {payload : Option (List PayloadItem)} {entries : List ParsedEntry}
  {now : Timestamp} {late : Bool} {newRowId newSnapshotId newHistoryId : ℕ → ClientId}
  {result : StockDemandResult}

/-- A request leaves one live row with the requested quantity for every identity that it resolves,
changes no other row, records the rows that rose and puts the new ones into the drafts; the same
request again changes nothing. -/
theorem demand_settles_report (hdb : RowsOk db)
    (hcategories : Keyed ItemCategory.clientId categories)
    (hparse : parseStockDemandBody lower normalizeStockCriteria computeStockCriteriaSignature
      payload = .ok entries)
    (h : receiveStockDemand lower sqlLower categories db entries now late newRowId newSnapshotId
      newHistoryId = .ok (db', result)) :
    (∀ e ∈ entries, ∀ c, requestCategory lower sqlLower categories entries
        (itemCategoryKey lower e.itemCategoryRaw) = some c →
      ∃ r, (liveIdentities db').filter (fun r => identityOf r == (c, e.propertiesSignature)) =
        [r] ∧ r.quantityRequested = e.quantityRequested) ∧
    (∃ created snapshots goals,
      (∀ r ∈ created, r.quantityRequested = 0 ∧ r.isDeleted = false ∧
        (requestedQuantity lower (requestCategory lower sqlLower categories entries) entries
          (identityOf r)).isSome ∧
        ∀ r' ∈ liveIdentities db, identityOf r' ≠ identityOf r) ∧
      db'.rows = (db.rows ++ created).map
        (settledRow lower (requestCategory lower sqlLower categories entries) entries) ∧
      db'.histories = db.histories ++ goals ∧
      (goals.map HistoryRecord.stockReportItemId).Perm
        (((db.rows ++ created).filter fun r => decide (r.quantityRequested <
          (settledRow lower (requestCategory lower sqlLower categories entries) entries
            r).quantityRequested)).map StockReportItem.clientId) ∧
      (∀ g ∈ goals, g.type = .quantityRequestedChange ∧ g.quantityAwaiting = 0 ∧
        ∃ r ∈ db'.rows, r.clientId = g.stockReportItemId ∧
          r.quantityRequested = g.quantityRequested) ∧
      db'.snapshots = db.snapshots ++ snapshots ∧
      (snapshots.map ItemSnapshot.pair).Perm
        ((db.versions.filter versionIsDraft).flatMap fun v =>
          created.map fun r => (v.clientId, r.clientId)) ∧
      ∀ s ∈ snapshots, ∀ v ∈ db.versions, isVersionActive v → s.versionId ≠ v.clientId) ∧
    ∀ now' (rowIds snapshotIds historyIds : ℕ → ClientId),
      receiveStockDemand lower sqlLower categories db' entries now' false rowIds snapshotIds
        historyIds = .ok (db', ⟨result.outcomes, []⟩) := by
  obtain ⟨hdistinct, -⟩ := parseStockDemandBody_spec hparse
  obtain ⟨houtcomes, hids, drafted, changes, hdrafted, hchanges, hinsert⟩ :=
    receiveStockDemand_eq_ok hcategories hdistinct h
  obtain ⟨hsnapshots, hrows, hhistories, hnew⟩ := addRowsToEveryDraft_eq_ok hdrafted
  replace hrows : drafted.rows = db.rows ++ absentRows db
    (resolvedEntries lower sqlLower categories entries) newRowId := hrows
  obtain ⟨hrecords, hdb'⟩ := insertHistories_eq_ok.mp hinsert
  set byIdentity := resolvedEntries lower sqlLower categories entries with hby
  set created := absentRows db byIdentity newRowId with hcreated
  have hkeys : (byIdentity.map Prod.fst).Nodup := resolvedEntries_keys hcategories hdistinct
  have hdraftedIds : Keyed StockReportItem.clientId drafted.rows := by
    rw [hrows]
    exact hids
  have hdraftedIdentities := identities_append hdb hkeys hrows
  have hwritten : db'.rows = drafted.rows.map (demanded byIdentity) := by
    rw [hdb']
    exact writeDemand_rows hkeys hdraftedIds hdraftedIdentities hchanges
  have hidentities := keyed_demanded hdraftedIdentities hwritten
  have hsettled : demanded byIdentity =
      settledRow lower (requestCategory lower sqlLower categories entries) entries :=
    funext (demanded_eq_settledRow hby)
  have hfound : ∀ e ∈ byIdentity, ∃ r, discoverLiveRow db' e.1 = some r ∧
      r.quantityRequested = e.2.quantityRequested := by
    intro e he
    obtain ⟨r, hr⟩ := discoverLiveRow_isSome hdb hkeys hrows (List.mem_map_of_mem he)
    exact ⟨_, discoverLiveRow_demanded hkeys hdraftedIdentities hwritten he hr, rfl⟩
  have hnoSnapshot : ∀ r ∈ created, ∀ t ∈ db.snapshots, t.stockReportItemId ≠ r.clientId := by
    intro r hr t ht he
    obtain ⟨row, hrow, hid⟩ := hdb.snapshots t ht
    exact (keyed_append.mp hids).2.2 row hrow r hr (hid.trans he)
  set goals := (changes.filter fun c => decide (c.1.quantityRequested < c.2)).zipIdx.map
    (goalRecord (writeDemand drafted changes) now newHistoryId) with hgoals
  refine ⟨fun e he c hc => ?_, ⟨created, newDraftSnapshots db created newSnapshotId, goals, ?_, ?_,
    ?_, ?_, ?_, ?_, ?_, ?_⟩, fun now' rowIds snapshotIds historyIds => ?_⟩
  · have hmem : ((c, e.propertiesSignature), e.demandEntry lower) ∈ byIdentity := by
      rw [hby]
      exact List.mem_filterMap.mpr ⟨e, he, by rw [resolvedEntry, hc]; rfl⟩
    obtain ⟨r, hr, hq⟩ := hfound _ hmem
    obtain ⟨hlive, hident⟩ := (discoverLiveRow_eq_some hidentities).mp hr
    replace hident : identityOf r = (c, e.propertiesSignature) := hident
    refine ⟨r, ?_, hq⟩
    rw [hidentities.filter_eq_toList_find?, ← hident,
      hidentities.find?_eq (mem_liveIdentities.mpr hlive)]
    rfl
  · intro r hr
    obtain ⟨hentry, hnone⟩ := mem_absentRows_identity.mp (List.mem_map_of_mem hr)
    refine ⟨(absentRows_spec r hr).1, (absentRows_spec r hr).2, ?_,
      discoverLiveRow_eq_none.mp hnone⟩
    obtain ⟨e, he, hident⟩ := List.mem_map.mp hentry
    rw [← find?_resolved, Option.isSome_map, List.find?_isSome]
    exact ⟨e, he, by simp [hident]⟩
  · rw [hwritten, hrows, hsettled]
  · rw [hdb', ← hhistories]
    rfl
  · rw [goalRecords_rows, ← hsettled, ← hrows]
    exact (grown_perm hkeys hdraftedIds hdraftedIdentities hchanges).map _
  · intro g hg
    obtain ⟨htype, hawaiting, c, hc, hrow, hq⟩ := goalRecords_spec hg
    obtain ⟨e, he, hfind, hask, -⟩ := (mem_changes hchanges).mp (List.mem_filter.mp hc).1
    have hafter := discoverLiveRow_demanded hkeys hdraftedIdentities hwritten he hfind
    refine ⟨htype, hawaiting, _, ((discoverLiveRow_eq_some hidentities).mp hafter).1.1,
      hrow.symm, ?_⟩
    rw [hq, hask]
  · rw [hdb']
    exact hnew
  · rw [newDraftSnapshots_pair hnoSnapshot, draftPairs, List.map_flatMap]
    refine List.Perm.trans (List.Perm.flatMap_right _ (sortBy_perm _ _)) ?_
    simp [Function.comp_def]
  · intro s hs v hv hactive he
    have hpair : s.pair ∈ (draftPairs db created).map fun p => (p.1, p.2.clientId) := by
      rw [← newDraftSnapshots_pair hnoSnapshot]
      exact List.mem_map_of_mem hs
    obtain ⟨p, hp, hpair⟩ := List.mem_map.mp hpair
    obtain ⟨⟨v', hv', hdraft, hid⟩, -⟩ := mem_draftPairs.mp hp
    obtain rfl := hdb.versions.inj hv' hv (hid.trans ((Prod.mk.inj hpair).1.trans he))
    simp [versionIsDraft, isVersionActive] at hdraft hactive
    simp [hdraft] at hactive
  · rw [houtcomes]
    refine receiveStockDemand_settled hcategories hdistinct ?_ ?_ ?_ hfound
    · rw [hwritten]
      refine hdraftedIds.of_map_eq ?_
      rw [List.map_map]
      exact List.map_congr_left fun r _ => clientId_demanded r
    · rw [hdb']
      exact hsnapshots
    · rw [hdb']
      exact hrecords

def sofaReport : Db where
  items := []
  tasks := []
  taskItems := []
  rows := [⟨"sofa", "c1", "{}", "{}", 5, 0, false⟩]
  versions := [⟨"v", none, some 0, none, none, false, 0, 0⟩,
    ⟨"d", none, none, none, none, false, 0, 0⟩]
  snapshots := []
  assignments := []
  histories := []
  repairs := []
  schedulers := []

def sofaRequest : List PayloadItem :=
  [.object (some "Sofas") (some "{}") (some 7), .object (some "Chairs") (some "{}") (some 2),
    .object (some "Lamps") (some "{}") (some 1)]

def sofaEntries : List ParsedEntry :=
  [⟨0, "Sofas", "{}", "{}", "{}", 7⟩, ⟨1, "Chairs", "{}", "{}", "{}", 2⟩,
    ⟨2, "Lamps", "{}", "{}", "{}", 1⟩]

def sofasSettled : Db where
  items := []
  tasks := []
  taskItems := []
  rows := [⟨"sofa", "c1", "{}", "{}", 7, 0, false⟩, ⟨"chair", "c2", "{}", "{}", 2, 0, false⟩]
  versions := [⟨"v", none, some 0, none, none, false, 0, 0⟩,
    ⟨"d", none, none, none, none, false, 1, 0⟩]
  snapshots := [⟨"s", "d", "chair", none, none, 0, none, 0, none, none, none, none⟩]
  assignments := []
  histories := [⟨"h0", "sofa", .quantityRequestedChange, 7, .scanner, 0, none, none, 1, false⟩,
    ⟨"h1", "chair", .quantityRequestedChange, 2, .scanner, 0, none, none, 1, false⟩]
  repairs := []
  schedulers := []

theorem sofa_request_settles :
    receiveStockDemand asciiLower asciiLower [⟨"c1", "Sofas", false⟩, ⟨"c2", "Chairs", false⟩]
      sofasSettled sofaEntries 2 false (fun _ => "x") (fun _ => "y") (fun _ => "z") =
        .ok (sofasSettled, ⟨[(0, .applied), (1, .applied), (2, .categoryNotFound)], []⟩) := by
  have hdb : RowsOk sofaReport := ⟨by decide, by decide, by decide, by simp [sofaReport]⟩
  have hparse : parseStockDemandBody asciiLower id id (some sofaRequest) = .ok sofaEntries := rfl
  have hrun : receiveStockDemand asciiLower asciiLower
      [⟨"c1", "Sofas", false⟩, ⟨"c2", "Chairs", false⟩] sofaReport sofaEntries 1 false
      (fun _ => "chair") (fun _ => "s") (fun i => if i = 0 then "h0" else "h1") =
        .ok (sofasSettled, ⟨[(0, .applied), (1, .applied), (2, .categoryNotFound)],
          [.created "chair", .updated "sofa" 7 0]⟩) := rfl
  exact (demand_settles_report hdb (by decide) hparse hrun).2.2 2 _ _ _

end Settled

end BeyoManager.StockReport
