import BeyoManager.StockReport.DemandRequest
import BeyoManager.StockReport.VersionEntries

/-! # What a demand request changes

The rows of the resolved entries hold the requested quantities afterwards, rows that rose have a
goal record each, and new rows are in every draft. The same request again changes nothing.
-/

namespace BeyoManager.StockReport

open Relational Sorting Transition

section Request

inductive DemandEvent
  | created (rowId : ClientId)
  | updated (rowId : ClientId) (quantityRequested : ℤ) (counters : Counters)
  deriving DecidableEq, Repr

/-- `StockDemandResult`: the outcome under the index of each entry, and the events. -/
structure StockDemandResult where
  outcomes : List (ℕ × StockDemandOutcome)
  events : List DemandEvent
  deriving DecidableEq, Repr

def ParsedEntry.demandEntry (lower : String → String) (e : ParsedEntry) : DemandEntry where
  itemCategoryKey := itemCategoryKey lower e.itemCategoryRaw
  propertiesNormalized := e.propertiesNormalized
  propertiesSignature := e.propertiesSignature
  quantityRequested := e.quantityRequested

def demandOutcomes (lower : String → String) (categoryByKey : String → Option ClientId)
    (entries : List ParsedEntry) : List (ℕ × StockDemandOutcome) :=
  entries.map fun e =>
    (e.index, match categoryByKey (itemCategoryKey lower e.itemCategoryRaw) with
      | some _ => .applied
      | none => .categoryNotFound)

/-- The events of a request: a row that it created gets no event for its quantity. -/
def demandEvents (db : Db) (categoryByKey : String → Option ClientId) (entries : List DemandEntry)
    (newRowId newSnapshotId : ℕ → ClientId) : Except CommandError (List DemandEvent) := do
  let byIdentity := entriesByIdentity categoryByKey entries
  let created := absentRows db byIdentity newRowId
  let db ← insertRows db created
  let db ← addRowsToEveryDraft db created newSnapshotId
  let changes ← demandChanges db byIdentity
  let updated := changes.filter fun c =>
    decide (c.1.clientId ∉ created.map StockReportItem.clientId)
  pure ((created.map fun r => .created r.clientId) ++
    updated.map fun c => .updated c.1.clientId c.2 c.1.counters)

/-- `receive_stock_demand_webhook`, from the parsed entries. -/
def receiveStockDemand (lower sqlLower : String → String) (categories : List ItemCategory) (db : Db)
    (entries : List ParsedEntry) (now : Timestamp) (late : Bool)
    (newRowId newSnapshotId newHistoryId : ℕ → ClientId) :
    Except CommandError (Db × StockDemandResult) := do
  let categoryByKey := categoryByKey lower sqlLower categories
    (entries.map ParsedEntry.itemCategoryRaw)
  let demand := entries.map (ParsedEntry.demandEntry lower)
  let events ← demandEvents db categoryByKey demand newRowId newSnapshotId
  let db ← applyStockDemand db categoryByKey demand now late newRowId newSnapshotId newHistoryId
  pure (db, ⟨demandOutcomes lower categoryByKey entries, events⟩)

end Request

section Rows

/-- The live rows of the report. -/
def liveIdentities (db : Db) : List StockReportItem := db.rows.filter fun r => !r.isDeleted

/-- What the tables guarantee: ids and the identities of live rows are unique, and a snapshot is
about a row. -/
structure RowsOk (db : Db) : Prop where
  ids : Keyed StockReportItem.clientId db.rows
  versions : Keyed SnapshotVersion.clientId db.versions
  identities : Keyed identityOf (liveIdentities db)
  snapshots : ∀ s ∈ db.snapshots, ∃ r ∈ db.rows, r.clientId = s.stockReportItemId

variable {db : Db} {byIdentity : List (Identity × DemandEntry)} {identity : Identity}
  {r : StockReportItem} {newId : ℕ → ClientId}

theorem mem_liveIdentities : r ∈ liveIdentities db ↔ r ∈ db.rows ∧ r.isDeleted = false := by
  simp [liveIdentities]

theorem discoverLiveRow_eq_some (h : Keyed identityOf (liveIdentities db)) :
    discoverLiveRow db identity = some r ↔
      (r ∈ db.rows ∧ r.isDeleted = false) ∧ identityOf r = identity := by
  have hreverse : Keyed identityOf (liveIdentities db).reverse := h.perm (List.reverse_perm _)
  rw [← mem_liveIdentities]
  constructor
  · intro hfind
    rw [discoverLiveRow] at hfind
    obtain ⟨hmem, hid⟩ := mem_of_find?_key hfind
    exact ⟨List.mem_reverse.mp hmem, hid⟩
  · rintro ⟨hmem, rfl⟩
    rw [discoverLiveRow]
    exact hreverse.find?_eq (List.mem_reverse.mpr hmem)

theorem discoverLiveRow_eq_none : discoverLiveRow db identity = none ↔
    ∀ r ∈ liveIdentities db, identityOf r ≠ identity := by
  simp only [discoverLiveRow, List.find?_eq_none, List.mem_reverse, beq_iff_eq]
  rfl

theorem absentRows_identities : ((absentRows db byIdentity newId).map identityOf).Perm
    ((byIdentity.filter fun e => (discoverLiveRow db e.1).isNone).map Prod.fst) := by
  have hfst : ∀ l : List (Identity × DemandEntry),
      l.zipIdx.map (fun x => x.1.1) = l.map Prod.fst := by
    intro l
    conv_rhs => rw [← List.zipIdx_map_fst 0 l, List.map_map]
    rfl
  rw [absentRows, List.map_map]
  refine List.Perm.trans (List.Perm.of_eq (hfst _)) ?_
  exact (sortBy_perm _ _).map Prod.fst

theorem absentRows_spec : ∀ r ∈ absentRows db byIdentity newId,
    r.quantityRequested = 0 ∧ r.isDeleted = false := by
  intro r hr
  obtain ⟨e, -, rfl⟩ := List.mem_map.mp hr
  exact ⟨rfl, rfl⟩

theorem mem_absentRows_identity : identity ∈ (absentRows db byIdentity newId).map identityOf ↔
    identity ∈ byIdentity.map Prod.fst ∧ discoverLiveRow db identity = none := by
  rw [absentRows_identities.mem_iff]
  simp only [List.mem_map, List.mem_filter, Option.isNone_iff_eq_none]
  constructor
  · rintro ⟨e, ⟨he, hnone⟩, rfl⟩
    exact ⟨⟨e, he, rfl⟩, hnone⟩
  · rintro ⟨⟨e, he, rfl⟩, hnone⟩
    exact ⟨e, ⟨he, hnone⟩, rfl⟩

theorem identities_append (h : RowsOk db) (hkeys : (byIdentity.map Prod.fst).Nodup) {drafted : Db}
    (hrows : drafted.rows = db.rows ++ absentRows db byIdentity newId) :
    Keyed identityOf (liveIdentities drafted) := by
  have hlive : liveIdentities drafted = liveIdentities db ++ absentRows db byIdentity newId := by
    rw [liveIdentities, hrows, List.filter_append]
    congr 1
    exact List.filter_eq_self.mpr fun r hr => by simp [(absentRows_spec r hr).2]
  have hnew : Keyed identityOf (absentRows db byIdentity newId) := by
    refine absentRows_identities.nodup_iff.mpr (hkeys.sublist ?_)
    exact (List.filter_sublist).map Prod.fst
  rw [hlive, keyed_append]
  refine ⟨h.identities, hnew, fun r hr r' hr' he => ?_⟩
  have hnone := (mem_absentRows_identity.mp (List.mem_map_of_mem hr')).2
  exact discoverLiveRow_eq_none.mp hnone r hr he

theorem discoverLiveRow_isSome (h : RowsOk db) (hkeys : (byIdentity.map Prod.fst).Nodup)
    {drafted : Db} (hrows : drafted.rows = db.rows ++ absentRows db byIdentity newId)
    (hmem : identity ∈ byIdentity.map Prod.fst) :
    ∃ r, discoverLiveRow drafted identity = some r := by
  have hunique := identities_append h hkeys hrows
  cases hfind : discoverLiveRow db identity with
  | some r =>
    obtain ⟨⟨hr, hlive⟩, hid⟩ := (discoverLiveRow_eq_some h.identities).mp hfind
    refine ⟨r, (discoverLiveRow_eq_some hunique).mpr ⟨⟨?_, hlive⟩, hid⟩⟩
    rw [hrows]
    exact List.mem_append_left _ hr
  | none =>
    obtain ⟨r, hr, hid⟩ := List.mem_map.mp (mem_absentRows_identity.mpr ⟨hmem, hfind⟩)
    refine ⟨r, (discoverLiveRow_eq_some hunique).mpr ⟨⟨?_, (absentRows_spec r hr).2⟩, hid⟩⟩
    rw [hrows]
    exact List.mem_append_right _ hr

end Rows

section Changes

variable {drafted : Db} {byIdentity : List (Identity × DemandEntry)} {r : StockReportItem}
  {changes : List (StockReportItem × ℤ)}

def demanded (byIdentity : List (Identity × DemandEntry)) (r : StockReportItem) :
    StockReportItem :=
  if r.isDeleted then r
  else
    match byIdentity.find? fun e => e.1 == identityOf r with
    | some e => { r with quantityRequested := e.2.quantityRequested }
    | none => r

theorem demanded_eq (r : StockReportItem) : demanded byIdentity r =
    { r with quantityRequested := (demanded byIdentity r).quantityRequested } := by
  rw [demanded]
  split
  · rfl
  · split <;> rfl

/-- What the changes are: the rows of the entries that ask for another quantity. -/
theorem mem_changes (h : demandChanges drafted byIdentity = .ok changes)
    {c : StockReportItem × ℤ} : c ∈ changes ↔ ∃ e ∈ byIdentity,
      discoverLiveRow drafted e.1 = some c.1 ∧ c.2 = e.2.quantityRequested ∧
        c.2 ≠ c.1.quantityRequested := by
  simp only [demandChanges, bind_eq_ok, pure, Except.pure, Except.ok.injEq] at h
  obtain ⟨locked, hlocked, rfl⟩ := h
  rw [List.mem_filter, decide_eq_true_eq]
  constructor
  · rintro ⟨hc, hne⟩
    obtain ⟨e, he, hce⟩ := mapM_mem hlocked c hc
    obtain ⟨row, hrow, hpair⟩ := bind_eq_ok.mp hce
    obtain rfl := Except.ok.inj hpair
    exact ⟨e, he, getOr_eq_ok.mp hrow, rfl, hne⟩
  · rintro ⟨e, he, hrow, hq, hne⟩
    refine ⟨?_, hne⟩
    obtain ⟨c', hc', hce⟩ := mapM_result hlocked e he
    obtain ⟨row, hrow', hpair⟩ := bind_eq_ok.mp hce
    obtain rfl := Except.ok.inj hpair
    rw [getOr_eq_ok.mp hrow'] at hrow
    rwa [← Prod.mk.eta (p := c), hq, ← Option.some.inj hrow]

/-- No row is changed twice. -/
theorem keyed_changes (hkeys : (byIdentity.map Prod.fst).Nodup)
    (hids : Keyed StockReportItem.clientId drafted.rows)
    (hidentities : Keyed identityOf (liveIdentities drafted))
    (h : demandChanges drafted byIdentity = .ok changes) :
    Keyed (fun c : StockReportItem × ℤ => c.1.clientId) changes := by
  simp only [demandChanges, bind_eq_ok, pure, Except.pure, Except.ok.injEq] at h
  obtain ⟨locked, hlocked, rfl⟩ := h
  refine keyed_filter ?_ _
  have hfound : ∀ c ∈ locked, c.1 ∈ drafted.rows := by
    intro c hc
    obtain ⟨e, -, hce⟩ := mapM_mem hlocked c hc
    obtain ⟨row, hrow, hpair⟩ := bind_eq_ok.mp hce
    obtain rfl := Except.ok.inj hpair
    exact ((discoverLiveRow_eq_some hidentities).mp (getOr_eq_ok.mp hrow)).1.1
  have hident : locked.map (fun c => identityOf c.1) = byIdentity.map Prod.fst := by
    refine map_of_mapM_eq_ok hlocked fun e _ c hce => ?_
    obtain ⟨row, hrow, hpair⟩ := bind_eq_ok.mp hce
    obtain rfl := Except.ok.inj hpair
    exact ((discoverLiveRow_eq_some hidentities).mp (getOr_eq_ok.mp hrow)).2
  have hnodup : (locked.map fun c => identityOf c.1).Nodup := hident ▸ hkeys
  refine List.Nodup.map_on (fun c hc c' hc' he => ?_) hnodup.of_map
  refine List.inj_on_of_nodup_map hnodup hc hc' ?_
  rw [hids.inj (hfound c hc) (hfound c' hc') he]

/-- The statement leaves every row with the quantity that is asked of it. -/
theorem writeDemand_rows (hkeys : (byIdentity.map Prod.fst).Nodup)
    (hids : Keyed StockReportItem.clientId drafted.rows)
    (hidentities : Keyed identityOf (liveIdentities drafted))
    (h : demandChanges drafted byIdentity = .ok changes) :
    (writeDemand drafted changes).rows = drafted.rows.map (demanded byIdentity) := by
  refine List.map_congr_left fun r hr => ?_
  cases hfind : changes.find? fun c => c.1.clientId == r.clientId with
  | some c =>
    obtain ⟨hc, hid⟩ := mem_of_find?_key hfind
    obtain ⟨e, he, hrow, hq, -⟩ := (mem_changes h).mp hc
    obtain ⟨⟨hmem, hlive⟩, hident⟩ := (discoverLiveRow_eq_some hidentities).mp hrow
    obtain rfl := hids.inj hmem hr hid
    have hentry : byIdentity.find? (fun e => e.1 == identityOf c.1) = some e := by
      rw [hident]
      exact Keyed.find?_eq hkeys he
    simp only [demanded, hlive, Bool.false_eq_true, if_false, hentry, hq]
  | none =>
    change r = demanded byIdentity r
    rw [demanded]
    split
    · rfl
    · rename_i hlive
      split
      · rename_i e hentry
        obtain ⟨he, hident⟩ : e ∈ byIdentity ∧ e.1 = identityOf r := mem_of_find?_key hentry
        have hrow : discoverLiveRow drafted e.1 = some r :=
          (discoverLiveRow_eq_some hidentities).mpr ⟨⟨hr, by simpa using hlive⟩, hident.symm⟩
        have hq : e.2.quantityRequested = r.quantityRequested := by
          by_contra hne
          have hmem := (mem_changes h (c := (r, e.2.quantityRequested))).mpr
            ⟨e, he, hrow, rfl, hne⟩
          simpa using List.find?_eq_none.mp hfind _ hmem
        rw [hq]
      · rfl

theorem demanded_of_mem (hkeys : (byIdentity.map Prod.fst).Nodup) {e : Identity × DemandEntry}
    (he : e ∈ byIdentity) (hlive : r.isDeleted = false) (hident : identityOf r = e.1) :
    demanded byIdentity r = { r with quantityRequested := e.2.quantityRequested } := by
  have hentry : byIdentity.find? (fun e => e.1 == identityOf r) = some e := by
    rw [hident]
    exact Keyed.find?_eq hkeys he
  simp only [demanded, hlive, Bool.false_eq_true, if_false, hentry]

/-- Which rows rise. -/
theorem grown_perm (hkeys : (byIdentity.map Prod.fst).Nodup)
    (hids : Keyed StockReportItem.clientId drafted.rows)
    (hidentities : Keyed identityOf (liveIdentities drafted))
    (h : demandChanges drafted byIdentity = .ok changes) :
    ((changes.filter fun c => decide (c.1.quantityRequested < c.2)).map Prod.fst).Perm
      (drafted.rows.filter fun r =>
        decide (r.quantityRequested < (demanded byIdentity r).quantityRequested)) := by
  have hchanges := keyed_changes hkeys hids hidentities h
  have hnodup : ((changes.filter fun c => decide (c.1.quantityRequested < c.2)).map
      Prod.fst).Nodup := by
    have hkeyed := keyed_filter hchanges fun c => decide (c.1.quantityRequested < c.2)
    refine List.Nodup.of_map StockReportItem.clientId ?_
    rw [List.map_map]
    exact hkeyed
  refine (List.perm_ext_iff_of_nodup hnodup (hids.nodup.filter _)).mpr fun r => ?_
  simp only [List.mem_map, List.mem_filter, decide_eq_true_eq]
  constructor
  · rintro ⟨c, ⟨hc, hlt⟩, rfl⟩
    obtain ⟨e, he, hrow, hq, -⟩ := (mem_changes h).mp hc
    obtain ⟨⟨hmem, hlive⟩, hident⟩ := (discoverLiveRow_eq_some hidentities).mp hrow
    refine ⟨hmem, ?_⟩
    rw [demanded_of_mem hkeys he hlive hident, ← hq]
    exact hlt
  · rintro ⟨hmem, hlt⟩
    rw [demanded] at hlt
    split at hlt
    · exact absurd hlt (lt_irrefl _)
    · rename_i hlive
      split at hlt
      · rename_i e hentry
        obtain ⟨he, hident⟩ : e ∈ byIdentity ∧ e.1 = identityOf r := mem_of_find?_key hentry
        have hrow : discoverLiveRow drafted e.1 = some r :=
          (discoverLiveRow_eq_some hidentities).mpr ⟨⟨hmem, by simpa using hlive⟩, hident.symm⟩
        exact ⟨(r, e.2.quantityRequested),
          ⟨(mem_changes h).mpr ⟨e, he, hrow, rfl, ne_of_gt hlt⟩, hlt⟩, rfl⟩
      · exact absurd hlt (lt_irrefl _)

end Changes

section Categories

variable {lower sqlLower : String → String} {categories : List ItemCategory}
  {entries : List ParsedEntry}

/-- A key resolves to a category whose name has this key. -/
theorem categoryByKey_name {raws : List String} {key : String} {c : ClientId}
    (h : categoryByKey lower sqlLower categories raws key = some c) :
    ∃ category ∈ categories, category.clientId = c ∧ lower category.name = key := by
  rw [categoryByKey, resolveCategoriesForEntries, Dict.find?_firstOf] at h
  cases hfirst : raws.find? fun r => itemCategoryKey lower r = key with
  | none =>
    rw [hfirst] at h
    cases h
  | some raw =>
    rw [hfirst] at h
    have hkey : itemCategoryKey lower raw = key := by simpa using List.find?_some hfirst
    replace h : resolveCategory lower (categoryCandidates lower sqlLower categories raws) raw =
        some c := h
    have hsub : ∀ (p : ItemCategory → Bool) (l : List ItemCategory),
        (categoryCandidates lower sqlLower categories raws).filter p = l →
          ∀ x ∈ l, x ∈ categories ∧ p x := by
      rintro p l rfl x hx
      obtain ⟨hx, hpx⟩ := List.mem_filter.mp hx
      exact ⟨(List.mem_filter.mp hx).1, hpx⟩
    unfold resolveCategory at h
    split at h
    · rename_i exact hexact
      obtain ⟨hmem, hname⟩ := hsub _ _ hexact exact (by simp)
      refine ⟨exact, hmem, Option.some.inj h, ?_⟩
      rw [(by simpa using hname : exact.name = PyString.strip raw)]
      exact hkey
    · split at h
      · rename_i category hsame
        obtain ⟨hmem, hname⟩ := hsub _ _ hsame category (by simp)
        exact ⟨category, hmem, Option.some.inj h, (by simpa using hname : _ = _).trans hkey⟩
      · cases h

theorem resolved_keys (hcategories : Keyed ItemCategory.clientId categories)
    (hdistinct : (entries.map (entryIdentity lower)).Nodup) {raws : List String} :
    (((entries.map (ParsedEntry.demandEntry lower)).filterMap fun e =>
      (categoryByKey lower sqlLower categories raws e.itemCategoryKey).map fun c =>
        ((c, e.propertiesSignature), e)).map Prod.fst).Nodup := by
  rw [List.Nodup, List.pairwise_map, List.pairwise_filterMap, List.pairwise_map]
  refine (List.pairwise_map.mp hdistinct).imp fun {e e'} hne x hx x' hx' he => hne ?_
  obtain ⟨c, hc, rfl⟩ := Option.map_eq_some_iff.mp hx
  obtain ⟨c', hc', rfl⟩ := Option.map_eq_some_iff.mp hx'
  obtain ⟨rfl, hsignature⟩ := Prod.mk.inj he
  -- one category has one key
  obtain ⟨category, hmem, hid, hname⟩ := categoryByKey_name hc
  obtain ⟨category', hmem', hid', hname'⟩ := categoryByKey_name hc'
  obtain rfl := hcategories.inj hmem hmem' (hid.trans hid'.symm)
  exact Prod.ext (hname.symm.trans hname') hsignature

end Categories

end BeyoManager.StockReport
