import BeyoManager.StockReport.DemandLookup

/-! # Demand requests

The body of a demand request is an array of entries. The parser collects every defect before it
refuses the body, so that an accepted body has no two entries with one identity.
-/

namespace BeyoManager.StockReport

open PyString

/-- `DemandEntry`, as the parser builds it. -/
structure ParsedEntry where
  index : ℕ
  itemCategoryRaw : String
  propertiesRaw : JsonText
  propertiesNormalized : JsonText
  propertiesSignature : String
  quantityRequested : ℤ
  deriving DecidableEq, Repr

/-- An element of the decoded array; a field is absent when it has another type than it should. -/
inductive PayloadItem
  | notAnObject
  | object (itemCategory : Option String) (properties : Option JsonText)
      (quantityRequested : Option ℤ)
  deriving DecidableEq, Repr

/-- `_MAX_QUANTITY_REQUESTED`. -/
def maxQuantityRequested : ℤ := 2147483647

section Parser

variable (lower : String → String) (normalizeStockCriteria : JsonText → JsonText)
  (computeStockCriteriaSignature : JsonText → String)

def entryIdentity (e : ParsedEntry) : String × String :=
  (itemCategoryKey lower e.itemCategoryRaw, e.propertiesSignature)

structure ParseState where
  defects : List String
  entries : List ParsedEntry
  firstIndexByIdentity : List ((String × String) × ℕ)

def fieldDefects (index : ℕ) (itemCategory : Option String) (properties : Option JsonText)
    (quantityRequested : Option ℤ) : List String :=
  (if itemCategory.any fun raw => strip raw ≠ "" then []
    else [s!"entry {index}: itemCategory must be a non-blank string"]) ++
  (if properties.isSome then [] else [s!"entry {index}: properties must be an object"]) ++
  if quantityRequested.any fun q => 0 ≤ q ∧ q ≤ maxQuantityRequested then []
  else [s!"entry {index}: quantityRequested must be an integer between 0 and " ++
    s!"{maxQuantityRequested}"]

def keepEntry (state : ParseState) (entry : ParsedEntry) : ParseState :=
  let identity := entryIdentity lower entry
  match state.firstIndexByIdentity.find? fun e => e.1 = identity with
  | some (_, first) =>
    { state with
      defects := state.defects ++
        [s!"entries {first} and {entry.index} resolve to the same identity"]
      entries := state.entries ++ [entry] }
  | none =>
    { state with
      entries := state.entries ++ [entry]
      firstIndexByIdentity := state.firstIndexByIdentity ++ [(identity, entry.index)] }

def parseItem (state : ParseState) (indexed : PayloadItem × ℕ) : ParseState :=
  match indexed with
  | (.notAnObject, index) =>
    { state with defects := state.defects ++ [s!"entry {index}: must be an object"] }
  | (.object (some category) (some properties) (some quantity), index) =>
    match fieldDefects index (some category) (some properties) (some quantity) with
    | [] => keepEntry lower state {
        index := index
        itemCategoryRaw := category
        propertiesRaw := properties
        propertiesNormalized := normalizeStockCriteria properties
        propertiesSignature := computeStockCriteriaSignature properties
        quantityRequested := quantity }
    | defects => { state with defects := state.defects ++ defects }
  | (.object category properties quantity, index) =>
    { state with defects := state.defects ++ fieldDefects index category properties quantity }

/-- `parse_stock_demand_body`, of the decoded array; anything else decodes to none. -/
def parseStockDemandBody (payload : Option (List PayloadItem)) :
    Except CommandError (List ParsedEntry) :=
  match payload with
  | none | some [] => .error (.validation
      "Malformed request: body must be a JSON array with at least one entry.")
  | some items =>
    let state := items.zipIdx.foldl (parseItem lower normalizeStockCriteria
      computeStockCriteriaSignature) ⟨[], [], []⟩
    match state.defects with
    | [] => .ok state.entries
    | defects => .error (.validation ("Malformed request: " ++ "; ".intercalate defects ++ "."))

end Parser

section Accepted

variable {lower : String → String} {normalizeStockCriteria : JsonText → JsonText}
  {computeStockCriteriaSignature : JsonText → String}

/-- What holds of the loop as long as there is no defect. -/
structure ParseState.Ok (lower : String → String) (state : ParseState) : Prop where
  identities : state.firstIndexByIdentity.map Prod.fst = state.entries.map (entryIdentity lower)
  distinct : (state.entries.map (entryIdentity lower)).Nodup
  quantities : ∀ e ∈ state.entries, 0 ≤ e.quantityRequested

theorem fieldDefects_eq_nil {index : ℕ} {category : Option String} {properties : Option JsonText}
    {quantity : Option ℤ} (h : fieldDefects index category properties quantity = []) :
    category.isSome ∧ properties.isSome ∧ ∃ q, quantity = some q ∧ 0 ≤ q := by
  simp only [fieldDefects, List.append_eq_nil_iff] at h
  obtain ⟨⟨hc, hp⟩, hq⟩ := h
  refine ⟨?_, ?_, ?_⟩
  · cases category with
    | none => simp at hc
    | some _ => rfl
  · cases properties with
    | none => simp at hp
    | some _ => rfl
  · cases quantity with
    | none => simp at hq
    | some q =>
      refine ⟨q, rfl, ?_⟩
      by_contra hneg
      simp [hneg] at hq

theorem keepEntry_spec {state : ParseState} {entry : ParsedEntry}
    (h : (keepEntry lower state entry).defects = []) :
    entryIdentity lower entry ∉ state.firstIndexByIdentity.map Prod.fst ∧
      keepEntry lower state entry = { state with
        entries := state.entries ++ [entry]
        firstIndexByIdentity := state.firstIndexByIdentity ++
          [(entryIdentity lower entry, entry.index)] } := by
  simp only [keepEntry] at h ⊢
  split at h
  · simp at h
  · rename_i hfind
    refine ⟨fun hmem => ?_, rfl⟩
    obtain ⟨e, he, hid⟩ := List.mem_map.mp hmem
    simpa [hid] using List.find?_eq_none.mp hfind e he

/-- What a turn of the loop that leaves no defect comes to: there was none before, and one entry
with a new identity was kept. -/
theorem parseItem_spec {state : ParseState} {indexed : PayloadItem × ℕ}
    (h : (parseItem lower normalizeStockCriteria computeStockCriteriaSignature state
      indexed).defects = []) :
    state.defects = [] ∧ ∃ entry : ParsedEntry, 0 ≤ entry.quantityRequested ∧
      entryIdentity lower entry ∉ state.firstIndexByIdentity.map Prod.fst ∧
        parseItem lower normalizeStockCriteria computeStockCriteriaSignature state indexed =
          { state with
            entries := state.entries ++ [entry]
            firstIndexByIdentity := state.firstIndexByIdentity ++
              [(entryIdentity lower entry, entry.index)] } := by
  obtain ⟨item, index⟩ := indexed
  unfold parseItem at h ⊢
  split at h
  · simp at h
  · rename_i category properties quantity hitem
    obtain ⟨rfl, rfl⟩ := Prod.mk.inj hitem
    split at h
    · rename_i hfields
      obtain ⟨-, -, q, hq, hnonneg⟩ := fieldDefects_eq_nil hfields
      obtain rfl := Option.some.inj hq
      obtain ⟨hnew, heq⟩ := keepEntry_spec h
      rw [heq] at h
      exact ⟨h, _, hnonneg, hnew, heq⟩
    · rename_i hfields
      exact absurd (List.append_eq_nil_iff.mp h).2 hfields
  · rename_i category properties quantity hsome hitem
    obtain ⟨rfl, rfl⟩ := Prod.mk.inj hitem
    obtain ⟨hc, hp, q, rfl, -⟩ := fieldDefects_eq_nil (List.append_eq_nil_iff.mp h).2
    obtain ⟨c, rfl⟩ := Option.isSome_iff_exists.mp hc
    obtain ⟨p, rfl⟩ := Option.isSome_iff_exists.mp hp
    exact absurd rfl (hsome c p q rfl rfl)

theorem ParseState.Ok.parseItem {state : ParseState} (hs : state.Ok lower)
    {indexed : PayloadItem × ℕ}
    (h : (parseItem lower normalizeStockCriteria computeStockCriteriaSignature state
      indexed).defects = []) :
    (parseItem lower normalizeStockCriteria computeStockCriteriaSignature state indexed).Ok
      lower := by
  obtain ⟨-, entry, hnonneg, hnew, heq⟩ := parseItem_spec h
  rw [heq]
  rw [hs.identities] at hnew
  constructor
  · simp only [List.map_append, hs.identities, List.map_cons, List.map_nil]
  · rw [List.map_append, List.map_singleton, List.nodup_append]
    refine ⟨hs.distinct, List.nodup_singleton _, fun x hx y hy hxy => hnew ?_⟩
    rw [← List.mem_singleton.mp hy, ← hxy]
    exact hx
  · intro e he
    rcases List.mem_append.mp he with he | he
    · exact hs.quantities e he
    · rw [List.mem_singleton.mp he]
      exact hnonneg

theorem foldl_parseItem_ok (items : List (PayloadItem × ℕ)) {state : ParseState}
    (hs : state.defects = [] → state.Ok lower) :
    let after := items.foldl (parseItem lower normalizeStockCriteria
      computeStockCriteriaSignature) state
    after.defects = [] → after.Ok lower := by
  induction items generalizing state with
  | nil => exact hs
  | cons item items ih =>
    refine ih fun h => ?_
    exact (hs (parseItem_spec h).1).parseItem h

theorem parseStockDemandBody_spec {payload : Option (List PayloadItem)} {entries : List ParsedEntry}
    (h : parseStockDemandBody lower normalizeStockCriteria computeStockCriteriaSignature payload =
      .ok entries) :
    (entries.map (entryIdentity lower)).Nodup ∧ ∀ e ∈ entries, 0 ≤ e.quantityRequested := by
  have hstart : ([] : List String) = [] → ParseState.Ok lower ⟨[], [], []⟩ :=
    fun _ => ⟨rfl, List.nodup_nil, by simp⟩
  unfold parseStockDemandBody at h
  split at h
  · cases h
  · cases h
  · rename_i items _
    dsimp only at h
    split at h
    · rename_i hnone
      have hok := foldl_parseItem_ok items.zipIdx hstart hnone
      obtain rfl := Except.ok.inj h
      exact ⟨hok.distinct, hok.quantities⟩
    · cases h

end Accepted

end BeyoManager.StockReport
