import BeyoManager.StockReport.DemandRequest
import BeyoManager.StockReport.WebhookBodies

/-! # Demands as bytes and as texts

The webhook reads the entries of a demand from bytes, as code points; the command behind it works
on texts. When the categories of a body are texts and its properties can be hashed, both accept the
same entries, or refuse the body with the same message.
-/

namespace BeyoManager.StockReport

open PyText Transition
open CriteriaMatcher (Fields)
open WebhookBodies (Python DemandFields entryText fieldDefect getField asObject)

section Checks

variable {index : ℕ} {text : PyStr → String} {json : Fields → JsonText}

def asText : Option Json → Option PyStr
  | some (.str s) => some s
  | _ => none

def asInteger : Option Json → Option ℤ
  | some (.int z) => some z
  | _ => none

theorem nonBlank_eq (field : Option Json) :
    WebhookBodies.nonBlank field = (asText field).filter fun s => strip s ≠ [] := by
  unfold WebhookBodies.nonBlank asText
  split <;> simp [Option.filter]

theorem asQuantity_eq (field : Option Json) : WebhookBodies.asQuantity field =
    (asInteger field).filter fun z => 0 ≤ z ∧ z ≤ maxQuantityRequested := by
  unfold WebhookBodies.asQuantity asInteger
  split <;> simp only [Option.filter, decide_eq_true_iff]
  rfl

theorem ofString_eq_nil {s : String} : ofString s = [] ↔ s = "" := by
  rw [ofString, List.map_eq_nil_iff, String.toList_eq_nil_iff]

theorem entryText_eq (index : ℕ) (defect : String) :
    entryText index defect = "entry " ++ toString index ++ (": " ++ defect) :=
  String.append_assoc

theorem map_fieldDefect {α : Type} {field : Option α} {passes : Bool} {defect message : String}
    (hpasses : passes = field.isSome) (hmessage : message = entryText index defect) :
    (if passes then [] else [message]) = (fieldDefect field defect).map (entryText index) := by
  rw [hpasses, hmessage, fieldDefect]
  split <;> rfl

/-- The defects of the fields of an entry are those that the parser collects. -/
theorem fieldDefects_eq (index : ℕ) (json : Fields → JsonText) {category : Option PyStr}
    (properties : Option Fields) (quantity : Option ℤ)
    (htext : ∀ s ∈ category, ofString (text s) = s) :
    fieldDefects index (category.map text) (properties.map json) quantity =
      (fieldDefect (category.filter fun s => strip s ≠ []) WebhookBodies.categoryDefect ++
        fieldDefect properties WebhookBodies.propertiesDefect ++
        fieldDefect (quantity.filter fun z => 0 ≤ z ∧ z ≤ maxQuantityRequested)
          s!"quantityRequested must be an integer between 0 and {maxQuantityRequested}").map
        (entryText index) := by
  rw [List.map_append, List.map_append, fieldDefects]
  refine congrArg₂ _ (congrArg₂ _ (map_fieldDefect ?_ ?_) (map_fieldDefect ?_ ?_))
    (map_fieldDefect ?_ ?_)
  · cases category with
    | none => rfl
    | some s =>
      have hstrip : PyString.strip (text s) = "" ↔ strip s = [] := by
        rw [← ofString_eq_nil, PyString.ofString_strip, htext s rfl]
      by_cases h : strip s = [] <;> simp [Option.filter, hstrip, h]
  · rw [entryText_eq]
    rfl
  · rw [Option.isSome_map]
  · rw [entryText_eq]
    rfl
  · cases quantity with
    | none => rfl
    | some z =>
      rw [Option.any_some, Option.filter]
      by_cases h : 0 ≤ z ∧ z ≤ maxQuantityRequested
      · rw [if_pos (decide_eq_true h), decide_eq_true h]
        rfl
      · rw [if_neg (by rwa [decide_eq_true_iff]), decide_eq_false h]
        rfl
  · rw [entryText_eq]
    exact String.append_assoc.trans (congrArg ("entry " ++ toString index ++ ·)
      (@String.append_assoc ": " "quantityRequested must be an integer between 0 and " _))

end Checks

section Rendering

variable (text : PyStr → String) (json : Fields → JsonText)

/-- An element of the array, with the fields that have the right type. -/
def renderItem : Json → PayloadItem
  | .obj item => .object ((asText (getField item "itemCategory")).map text)
      ((asObject (getField item "properties")).map json)
      (asInteger (getField item "quantityRequested"))
  | _ => .notAnObject

def renderBody : Json → Option (List PayloadItem)
  | .arr items => some (items.map (renderItem text json))
  | _ => none

/-- `DemandEntry`, with texts for code points. -/
def renderEntry (entry : WebhookBodies.DemandEntry) : ParsedEntry where
  index := entry.index
  itemCategoryRaw := text entry.itemCategoryRaw
  propertiesRaw := json entry.propertiesRaw
  propertiesNormalized := json entry.propertiesNormalized
  propertiesSignature := entry.propertiesSignature
  quantityRequested := entry.quantityRequested

def IsText (py : Python) : Json → Prop
  | .obj item =>
    (∀ s ∈ asText (getField item "itemCategory"), ofString (text s) = s) ∧
      ∀ fields ∈ asObject (getField item "properties"), WebhookBodies.Encodable py fields
  | _ => True

/-- The functions of the command do to texts what those of the parser do to code points. -/
structure Renders (py : Python) (lower : String → String)
    (normalizeStockCriteria : JsonText → JsonText)
    (computeStockCriteriaSignature : JsonText → String) : Prop where
  lower : ∀ s, ofString (lower s) = py.lower (ofString s)
  normalized : ∀ fields, normalizeStockCriteria (json fields) =
    json (CriteriaMatcher.normalizeStockCriteria py.lower fields)
  signature : ∀ fields hash, WebhookBodies.computeStockCriteriaSignature py fields = .ok hash →
    computeStockCriteriaSignature (json fields) = hash

structure SameLoop (state : WebhookBodies.ParseState WebhookBodies.DemandEntry)
    (state' : ParseState) : Prop where
  defects : state'.defects = state.defects
  entries : state'.entries = state.entries.map (renderEntry text json)
  identities : state.firstIndexByIdentity =
    state'.firstIndexByIdentity.map fun e => ((ofString e.1.1, e.1.2), e.2)

end Rendering

section Loop

variable {py : Python} {text : PyStr → String} {json : Fields → JsonText}
  {lower : String → String} {normalizeStockCriteria : JsonText → JsonText}
  {computeStockCriteriaSignature : JsonText → String}
  {state : WebhookBodies.ParseState WebhookBodies.DemandEntry} {state' : ParseState}

/-- Keeping an entry under its identity. -/
theorem SameLoop.keep (h : SameLoop text json state state') {entry : WebhookBodies.DemandEntry}
    {identity : WebhookBodies.Identity}
    (hidentity : (ofString (itemCategoryKey lower (text entry.itemCategoryRaw)),
      entry.propertiesSignature) = identity) :
    SameLoop text json
      { state.register entry.index (some identity) with
        entries := (state.register entry.index (some identity)).entries ++ [entry] }
      (keepEntry lower state' (renderEntry text json entry)) := by
  subst hidentity
  have hsame : ((fun e : WebhookBodies.Identity × ℕ => decide (e.1 =
      (ofString (itemCategoryKey lower (text entry.itemCategoryRaw)), entry.propertiesSignature))) ∘
        fun e : (String × String) × ℕ => ((ofString e.1.1, e.1.2), e.2)) =
      fun e => decide (e.1 = entryIdentity lower (renderEntry text json entry)) := by
    funext e
    simp [entryIdentity, renderEntry, Prod.ext_iff, PyString.ofString_injective.eq_iff]
  have hfind : state.firstIndex (ofString (itemCategoryKey lower (text entry.itemCategoryRaw)),
      entry.propertiesSignature) =
        (state'.firstIndexByIdentity.find? fun e =>
          e.1 = entryIdentity lower (renderEntry text json entry)).map Prod.snd := by
    rw [WebhookBodies.ParseState.firstIndex, h.identities, List.find?_map, hsame, Option.map_map]
    rfl
  simp only [WebhookBodies.ParseState.register, hfind, keepEntry]
  cases state'.firstIndexByIdentity.find? fun e =>
      e.1 = entryIdentity lower (renderEntry text json entry) with
  | none =>
    refine ⟨h.defects, ?_, ?_⟩
    · simp [h.entries]
    · simp [h.identities, entryIdentity, renderEntry]
  | some found =>
    refine ⟨?_, ?_, h.identities⟩
    · simp only [Option.map_some, h.defects]
      rfl
    · simp [h.entries]

theorem demandFieldsOf_eq_error {category : Option PyStr} {properties : Option Fields}
    {quantity : Option ℤ} {defects : List String}
    (h : WebhookBodies.demandFieldsOf category properties quantity = .error defects) :
    defects = fieldDefect category WebhookBodies.categoryDefect ++
      fieldDefect properties WebhookBodies.propertiesDefect ++
      fieldDefect quantity
        s!"quantityRequested must be an integer between 0 and {maxQuantityRequested}" := by
  unfold WebhookBodies.demandFieldsOf at h
  split at h
  · cases h
  · exact (Except.error.inj h).symm

theorem demandFieldsOf_eq_ok {category : Option PyStr} {properties : Option Fields}
    {quantity : Option ℤ} {fields : DemandFields}
    (h : WebhookBodies.demandFieldsOf category properties quantity = .ok fields) :
    category = some fields.itemCategory ∧ properties = some fields.properties ∧
      quantity = some fields.quantityRequested := by
  unfold WebhookBodies.demandFieldsOf at h
  split at h
  · cases h
    exact ⟨rfl, rfl, rfl⟩
  · cases h

theorem parseItem_of_defects {index : ℕ} {category : Option String} {properties : Option JsonText}
    {quantity : Option ℤ} (h : fieldDefects index category properties quantity ≠ []) :
    parseItem lower normalizeStockCriteria computeStockCriteriaSignature state'
        (.object category properties quantity, index) =
      { state' with
        defects := state'.defects ++ fieldDefects index category properties quantity } := by
  unfold parseItem
  split
  · rename_i heq
    cases heq
  · rename_i heq
    cases heq
    split
    · exact absurd ‹_› h
    · rfl
  · rename_i heq
    cases heq
    rfl

theorem Renders.itemCategoryKey
    (h : Renders json py lower normalizeStockCriteria computeStockCriteriaSignature) {s : PyStr}
    (htext : ofString (text s) = s) :
    ofString (itemCategoryKey lower (text s)) = WebhookBodies.itemCategoryKey py s := by
  rw [StockReport.itemCategoryKey, h.lower, PyString.ofString_strip, htext]
  rfl

/-- A turn of one loop is a turn of the other. -/
theorem SameLoop.parseItem (h : SameLoop text json state state')
    (hrenders : Renders json py lower normalizeStockCriteria computeStockCriteriaSignature)
    {item : Json} (hitem : IsText text py item) (index : ℕ) :
    ∃ next, WebhookBodies.parseItem (WebhookBodies.demandRules py) state (item, index) = .ok next ∧
      SameLoop text json next (StockReport.parseItem lower normalizeStockCriteria
        computeStockCriteriaSignature state' (renderItem text json item, index)) := by
  have hother : ∃ next, Except.ok (ε := WebhookBodies.BodyError)
      { state with defects := state.defects ++ [entryText index "must be an object"] } = .ok next ∧
        SameLoop text json next (StockReport.parseItem lower normalizeStockCriteria
          computeStockCriteriaSignature state' (.notAnObject, index)) := by
    refine ⟨_, rfl, ?_, h.entries, h.identities⟩
    simp only [StockReport.parseItem, h.defects, entryText_eq]
    rfl
  cases item with
  | null | bool | int | float | str | arr => exact hother
  | obj item =>
    obtain ⟨htext, hhash⟩ := hitem
    have hdefects := fieldDefects_eq index json (asObject (getField item "properties"))
      (asInteger (getField item "quantityRequested")) htext
    rw [← nonBlank_eq, ← asQuantity_eq] at hdefects
    cases hread : WebhookBodies.readDemandFields item with
    | error defects =>
      have hne := WebhookBodies.demandFieldsOf_defects hread
      rw [← demandFieldsOf_eq_error hread] at hdefects
      have hsome := (List.map_eq_nil_iff (f := entryText index)).not.mpr hne
      rw [← hdefects] at hsome
      refine ⟨{ state with defects := state.defects ++ defects.map (entryText index) }, ?_, ?_⟩
      · simp only [WebhookBodies.parseItem, WebhookBodies.demandRules, hread]
      · rw [renderItem, parseItem_of_defects hsome]
        exact ⟨by rw [h.defects, hdefects], h.entries, h.identities⟩
    | ok fields =>
      obtain ⟨hcategory, hproperties, hquantity⟩ := demandFieldsOf_eq_ok hread
      rw [hcategory, hquantity] at hdefects
      rw [nonBlank_eq] at hcategory
      rw [asQuantity_eq] at hquantity
      have hcategory := (Option.filter_eq_some_iff.mp hcategory).1
      have hquantity := (Option.filter_eq_some_iff.mp hquantity).1
      have hkey := hrenders.itemCategoryKey (htext _ hcategory)
      obtain ⟨hash, hhash⟩ := WebhookBodies.computeStockCriteriaSignature_ok (hhash _ hproperties)
      set entry := (WebhookBodies.demandRules py).build index fields hash with hentry
      have hparsed : WebhookBodies.parseItem (WebhookBodies.demandRules py) state
        (.obj item, index) =
          .ok { state.register entry.index
              (some (WebhookBodies.itemCategoryKey py fields.itemCategory, hash)) with
            entries := (state.register entry.index
              (some (WebhookBodies.itemCategoryKey py fields.itemCategory, hash))).entries ++
                [entry] } := by
        simp only [WebhookBodies.parseItem, WebhookBodies.demandRules, hread, hhash]
        rfl
      have hkept : StockReport.parseItem lower normalizeStockCriteria computeStockCriteriaSignature
          state' (renderItem text json (.obj item), index) =
            keepEntry lower state' (renderEntry text json entry) := by
        rw [hcategory, hproperties, hquantity] at hdefects
        rw [renderItem, hcategory, hproperties, hquantity]
        simp only [Option.map_some] at hdefects ⊢
        rw [StockReport.parseItem, hdefects]
        simp [fieldDefect, hentry, renderEntry, WebhookBodies.demandRules, hrenders.normalized,
          hrenders.signature _ _ hhash]
      refine ⟨_, hparsed, ?_⟩
      rw [hkept]
      apply h.keep
      rw [← hkey]
      rfl

theorem SameLoop.foldlM (h : SameLoop text json state state')
    (hrenders : Renders json py lower normalizeStockCriteria computeStockCriteriaSignature)
    (items : List (Json × ℕ)) (hitems : ∀ item ∈ items, IsText text py item.1) :
    ∃ last, items.foldlM (WebhookBodies.parseItem (WebhookBodies.demandRules py)) state = .ok last ∧
      SameLoop text json last ((items.map (Prod.map (renderItem text json) id)).foldl
        (StockReport.parseItem lower normalizeStockCriteria computeStockCriteriaSignature)
        state') := by
  induction items generalizing state state' with
  | nil => exact ⟨state, rfl, h⟩
  | cons item items ih =>
    obtain ⟨next, hnext, hsame⟩ :=
      h.parseItem hrenders (hitems item List.mem_cons_self) item.2
    obtain ⟨last, hlast, hsame⟩ := ih hsame fun x hx => hitems x (List.mem_cons_of_mem item hx)
    exact ⟨last, foldlM_cons_eq_ok.mpr ⟨next, hnext, hlast⟩, hsame⟩

/-- The command accepts the entries that the parser accepts, and refuses a body with the message
that the parser refuses it with. -/
theorem parseStockDemandBody_renders
    (hrenders : Renders json py lower normalizeStockCriteria computeStockCriteriaSignature)
    {raw : ByteArray} {payload : Json} (hload : WebhookBodies.loadBody py raw = .ok payload)
    (htexts : ∀ items, payload = .arr items → ∀ item ∈ items, IsText text py item) :
    (∃ entries, WebhookBodies.parseStockDemandBody py raw = .ok entries ∧
      parseStockDemandBody lower normalizeStockCriteria computeStockCriteriaSignature
        (renderBody text json payload) = .ok (entries.map (renderEntry text json))) ∨
    ∃ message, WebhookBodies.parseStockDemandBody py raw = .error (.validation message) ∧
      parseStockDemandBody lower normalizeStockCriteria computeStockCriteriaSignature
        (renderBody text json payload) = .error (.validation message) := by
  rw [WebhookBodies.parseStockDemandBody, WebhookBodies.parseBody, hload]
  cases payload with
  | null | bool | int | float | str | obj => exact .inr ⟨_, rfl, rfl⟩
  | arr items =>
    cases items with
    | nil => exact .inr ⟨_, rfl, rfl⟩
    | cons item items =>
      have hstart : SameLoop text json .start ⟨[], [], []⟩ := ⟨rfl, rfl, rfl⟩
      obtain ⟨last, hlast, hsame⟩ := hstart.foldlM hrenders (item :: items).zipIdx fun x hx =>
        htexts _ rfl x.1 (List.fst_mem_of_mem_zipIdx hx)
      have hbody : (do
          let items ← WebhookBodies.requireEntries (.arr (item :: items))
          let state ← items.zipIdx.foldlM
            (WebhookBodies.parseItem (WebhookBodies.demandRules py)) .start
          state.close) = last.close :=
        congrArg (fun loop => loop >>= WebhookBodies.ParseState.close) hlast
      rw [← List.zipIdx_map] at hsame
      generalize hloop : ((item :: items).map (renderItem text json)).zipIdx.foldl
        (parseItem lower normalizeStockCriteria computeStockCriteriaSignature) ⟨[], [], []⟩ =
          final at hsame
      have hcommand : parseStockDemandBody lower normalizeStockCriteria
          computeStockCriteriaSignature (renderBody text json (.arr (item :: items))) =
            if last.defects = [] then .ok (last.entries.map (renderEntry text json))
            else .error (.validation
              ("Malformed request: " ++ "; ".intercalate last.defects ++ ".")) := by
        rw [← hsame.entries, ← hsame.defects, ← hloop]
        simp only [renderBody, List.map_cons, parseStockDemandBody]
        split <;> simp_all
      rw [hcommand]
      by_cases hdefects : last.defects = []
      · exact .inl ⟨last.entries, hbody.trans (if_pos hdefects), if_pos hdefects⟩
      · exact .inr ⟨_, hbody.trans (if_neg hdefects), if_neg hdefects⟩

end Loop

end BeyoManager.StockReport
