import BeyoManager.Library.JsonText
import BeyoManager.StockReport.CriteriaMatcher

/-! # The bodies of the Scanner's webhooks

Three webhooks receive an array of entries as raw bytes. Their parsers share one loop: the
fields of every entry are read, all defects are collected, and the two demand bodies refuse
entries with the same identity. They differ in the fields they read and the entries they build.
-/

namespace BeyoManager.StockReport.WebhookBodies

open PyText Transition CriteriaMatcher

inductive BodyError
  | validation (message : String)
  /-- `canonical.encode("utf-8")` of a lone surrogate. -/
  | unicodeEncodeError
  /-- `json.loads` of a text that is nested too deeply. -/
  | recursionError
  /-- `json.loads` of an integer with too many digits. -/
  | valueError
  deriving DecidableEq, Repr

/-- What the parsers use of Python and its libraries. -/
structure Python where
  lower : PyStr → PyStr
  reprFloat : PyStr → PyStr
  /-- `hashlib.sha256(data).hexdigest()`. -/
  sha256 : ByteArray → String
  maxDepth : ℕ

/-- The limits of `json.loads`. -/
def Python.limits (py : Python) : JsonText.Limits := ⟨some py.maxDepth, some maxStrDigits⟩

/-- `(item_category_key, properties_signature)`. -/
abbrev Identity := PyStr × String

variable (py : Python)

section Loading

/-- `raw.decode("utf-8")`, then `json.loads`. -/
def loadBody (raw : ByteArray) : Except BodyError Json :=
  match String.fromUTF8? raw with
  | none => .error (.validation "Malformed request: body is not valid UTF-8 JSON.")
  | some decoded =>
    match JsonText.read py.reprFloat py.limits (ofString decoded) with
    | .ok (payload, _) => .ok payload
    | .error .decodeError => .error (.validation "Malformed request: body is not valid JSON.")
    | .error .recursionError => .error .recursionError
    | .error .digitsError => .error .valueError

def requireEntries : Json → Except BodyError (List Json)
  | .arr (item :: items) => .ok (item :: items)
  | _ => .error
      (.validation "Malformed request: body must be a JSON array with at least one entry.")

end Loading

section Loop

variable {Checked Signature Entry : Type}

/-- What a parser asks of an entry: the fields it reads, what it hashes, the entry it builds
and the identity of it, if entries of the body have one. -/
structure EntryRules (Checked Signature Entry : Type) where
  readFields : Fields → Except (List String) Checked
  sign : Checked → Except BodyError Signature
  build : ℕ → Checked → Signature → Entry
  identity : Checked → Signature → Option Identity
  /-- What `sign` needs of the fields. -/
  Hashable : Checked → Prop
  /-- An entry is refused with a defect. -/
  defects_ne_nil : ∀ item defects, readFields item = .error defects → defects ≠ []
  sign_ok : ∀ checked, Hashable checked → ∃ signature, sign checked = .ok signature
  sign_error : ∀ checked, ¬ Hashable checked → sign checked = .error .unicodeEncodeError

structure ParseState (Entry : Type) where
  defects : List String
  entries : List Entry
  firstIndexByIdentity : List (Identity × ℕ)

/-- The loop before the first entry. -/
def ParseState.start : ParseState Entry := ⟨[], [], []⟩

/-- `first_index_by_identity[identity]`. -/
def ParseState.firstIndex (state : ParseState Entry) (identity : Identity) : Option ℕ :=
  (state.firstIndexByIdentity.find? fun e => e.1 = identity).map Prod.snd

def entryText (index : ℕ) (defect : String) : String := s!"entry {index}: {defect}"

def duplicateText (first index : ℕ) : String :=
  s!"entries {first} and {index} resolve to the same identity"

/-- Look an entry's identity up among those of the entries before it. -/
def ParseState.register (state : ParseState Entry) (index : ℕ) :
    Option Identity → ParseState Entry
  | none => state
  | some identity =>
    match state.firstIndex identity with
    | some first => { state with defects := state.defects ++ [duplicateText first index] }
    | none =>
      { state with firstIndexByIdentity := state.firstIndexByIdentity ++ [(identity, index)] }

variable (rules : EntryRules Checked Signature Entry)

def parseItem (state : ParseState Entry) (indexed : Json × ℕ) :
    Except BodyError (ParseState Entry) :=
  match indexed with
  | (.obj item, index) =>
    match rules.readFields item with
    | .error defects => .ok { state with defects := state.defects ++ defects.map (entryText index) }
    | .ok checked => do
      let signature ← rules.sign checked
      let state := state.register index (rules.identity checked signature)
      pure { state with entries := state.entries ++ [rules.build index checked signature] }
  | (_, index) =>
    .ok { state with defects := state.defects ++ [entryText index "must be an object"] }

def ParseState.close (state : ParseState Entry) : Except BodyError (List Entry) :=
  if state.defects = [] then .ok state.entries
  else .error (.validation ("Malformed request: " ++ "; ".intercalate state.defects ++ "."))

def parseBody (raw : ByteArray) : Except BodyError (List Entry) := do
  let payload ← loadBody py raw
  let items ← requireEntries payload
  let state ← items.zipIdx.foldlM (parseItem rules) .start
  state.close

end Loop

section Fields

/-- `item.get(key)`. -/
def getField (item : Fields) (key : String) : Option Json :=
  (item.find? fun e => e.1 = ofString key).map Prod.snd

/-- `isinstance(value, str) and bool(value.strip())`. -/
def nonBlank : Option Json → Option PyStr
  | some (.str s) => if strip s ≠ [] then some s else none
  | _ => none

/-- `isinstance(value, dict)`. -/
def asObject : Option Json → Option Fields
  | some (.obj fields) => some fields
  | _ => none

/-- `_MAX_QUANTITY_REQUESTED`. -/
def maxQuantityRequested : ℤ := 2147483647

/-- `type(value) is int and 0 <= value <= _MAX_QUANTITY_REQUESTED`. -/
def asQuantity : Option Json → Option ℤ
  | some (.int z) => if 0 ≤ z ∧ z ≤ maxQuantityRequested then some z else none
  | _ => none

def fieldDefect {α : Type} (field : Option α) (defect : String) : List String :=
  if field.isSome then [] else [defect]

def categoryDefect : String := "itemCategory must be a non-blank string"

def propertiesDefect : String := "properties must be an object"

end Fields

section Demand

/-- `compute_properties_signature`. -/
def computePropertiesSignature (properties : Fields) : Except BodyError String :=
  match encodeUtf8 (Json.obj properties).sortKeys.dumps with
  | some canonical => .ok (py.sha256 canonical)
  | none => .error .unicodeEncodeError

/-- `compute_stock_criteria_signature`. -/
def computeStockCriteriaSignature (raw : Fields) : Except BodyError String :=
  computePropertiesSignature py (normalizeStockCriteria py.lower raw)

def Encodable (raw : Fields) : Prop :=
  ∀ s ∈ (Json.obj (normalizeStockCriteria py.lower raw)).texts, s.any isSurrogate = false

section Signature

variable {py} {raw : Fields}

theorem encodable_iff : Encodable py raw ↔ ((Json.obj (normalizeStockCriteria py.lower
    raw)).sortKeys.dumps.any isSurrogate = false) := by
  rw [Json.any_isSurrogate_dumps, Json.any_texts_sortKeys, List.any_eq_false]
  simp only [Encodable, Bool.not_eq_true]

theorem computeStockCriteriaSignature_ok (h : Encodable py raw) :
    ∃ signature, computeStockCriteriaSignature py raw = .ok signature := by
  obtain ⟨canonical, hcanonical⟩ :=
    Option.isSome_iff_exists.mp (encodeUtf8_isSome.mpr (encodable_iff.mp h))
  exact ⟨py.sha256 canonical, by rw [computeStockCriteriaSignature, computePropertiesSignature,
    hcanonical]⟩

theorem computeStockCriteriaSignature_error (h : ¬ Encodable py raw) :
    computeStockCriteriaSignature py raw = .error .unicodeEncodeError := by
  have hnone : encodeUtf8 (Json.obj (normalizeStockCriteria py.lower raw)).sortKeys.dumps = none :=
    Option.not_isSome_iff_eq_none.mp fun hsome => h (encodable_iff.mpr (encodeUtf8_isSome.mp hsome))
  rw [computeStockCriteriaSignature, computePropertiesSignature, hnone]

end Signature

/-- `item_category_raw.strip().lower()`. -/
def itemCategoryKey (raw : PyStr) : PyStr := py.lower (strip raw)

/-- `DemandEntry`. -/
structure DemandEntry where
  index : ℕ
  itemCategoryRaw : PyStr
  itemCategoryKey : PyStr
  propertiesRaw : Fields
  propertiesNormalized : Fields
  propertiesSignature : String
  quantityRequested : ℤ

structure DemandFields where
  itemCategory : PyStr
  properties : Fields
  quantityRequested : ℤ

def demandFieldsOf : Option PyStr → Option Fields → Option ℤ → Except (List String) DemandFields
  | some category, some properties, some quantity => .ok ⟨category, properties, quantity⟩
  | category, properties, quantity => .error
      (fieldDefect category categoryDefect ++ fieldDefect properties propertiesDefect ++
        fieldDefect quantity
          s!"quantityRequested must be an integer between 0 and {maxQuantityRequested}")

/-- The field checks of `parse_stock_demand_body`. -/
def readDemandFields (item : Fields) : Except (List String) DemandFields :=
  demandFieldsOf (nonBlank (getField item "itemCategory")) (asObject (getField item "properties"))
    (asQuantity (getField item "quantityRequested"))

theorem demandFieldsOf_defects {category : Option PyStr} {properties : Option Fields}
    {quantity : Option ℤ} {defects : List String}
    (h : demandFieldsOf category properties quantity = .error defects) : defects ≠ [] := by
  rintro rfl
  cases category <;> cases properties <;> cases quantity <;> simp [demandFieldsOf, fieldDefect] at h

def demandRules : EntryRules DemandFields String DemandEntry where
  readFields := readDemandFields
  sign fields := computeStockCriteriaSignature py fields.properties
  build index fields signature :=
    { index := index
      itemCategoryRaw := fields.itemCategory
      itemCategoryKey := itemCategoryKey py fields.itemCategory
      propertiesRaw := fields.properties
      propertiesNormalized := normalizeStockCriteria py.lower fields.properties
      propertiesSignature := signature
      quantityRequested := fields.quantityRequested }
  identity fields signature := some (itemCategoryKey py fields.itemCategory, signature)
  Hashable fields := Encodable py fields.properties
  defects_ne_nil _ _ h := demandFieldsOf_defects h
  sign_ok _ h := computeStockCriteriaSignature_ok h
  sign_error _ h := computeStockCriteriaSignature_error h

/-- `parse_stock_demand_body`. -/
def parseStockDemandBody (raw : ByteArray) : Except BodyError (List DemandEntry) :=
  parseBody py (demandRules py) raw

end Demand

section DemandDeleted

/-- `DemandDeleteEntry`. -/
structure DemandDeleteEntry where
  index : ℕ
  itemCategoryRaw : PyStr
  itemCategoryKey : PyStr
  propertiesRaw : Fields
  propertiesNormalized : Fields
  propertiesSignature : String

def demandDeletedFieldsOf : Option PyStr → Option Fields → Except (List String) (PyStr × Fields)
  | some category, some properties => .ok (category, properties)
  | category, properties => .error
      (fieldDefect category categoryDefect ++ fieldDefect properties propertiesDefect)

/-- The field checks of `parse_stock_demand_deleted_body`. -/
def readDemandDeletedFields (item : Fields) : Except (List String) (PyStr × Fields) :=
  demandDeletedFieldsOf (nonBlank (getField item "itemCategory"))
    (asObject (getField item "properties"))

theorem demandDeletedFieldsOf_defects {category : Option PyStr} {properties : Option Fields}
    {defects : List String} (h : demandDeletedFieldsOf category properties = .error defects) :
    defects ≠ [] := by
  rintro rfl
  cases category <;> cases properties <;> simp [demandDeletedFieldsOf, fieldDefect] at h

def demandDeletedRules : EntryRules (PyStr × Fields) String DemandDeleteEntry where
  readFields := readDemandDeletedFields
  sign fields := computeStockCriteriaSignature py fields.2
  build index fields signature :=
    { index := index
      itemCategoryRaw := fields.1
      itemCategoryKey := itemCategoryKey py fields.1
      propertiesRaw := fields.2
      propertiesNormalized := normalizeStockCriteria py.lower fields.2
      propertiesSignature := signature }
  identity fields signature := some (itemCategoryKey py fields.1, signature)
  Hashable fields := Encodable py fields.2
  defects_ne_nil _ _ h := demandDeletedFieldsOf_defects h
  sign_ok _ h := computeStockCriteriaSignature_ok h
  sign_error _ h := computeStockCriteriaSignature_error h

/-- `parse_stock_demand_deleted_body`. -/
def parseStockDemandDeletedBody (raw : ByteArray) : Except BodyError (List DemandDeleteEntry) :=
  parseBody py (demandDeletedRules py) raw

end DemandDeleted

section ItemsProcessed

/-- The field check of `parse_items_processed_body`. -/
def readArticleNumber (item : Fields) : Except (List String) PyStr :=
  match nonBlank (getField item "article_number") with
  | some number => .ok number
  | none => .error ["article_number must be a non-blank string"]

/-- Entries with the same number are allowed. -/
def itemsProcessedRules : EntryRules PyStr Unit PyStr where
  readFields := readArticleNumber
  sign _ := .ok ()
  build _ number _ := number
  identity _ _ := none
  Hashable _ := True
  defects_ne_nil := by
    intro item defects h
    unfold readArticleNumber at h
    split at h
    · cases h
    · obtain rfl := Except.error.inj h
      simp
  sign_ok _ _ := ⟨(), rfl⟩
  sign_error _ h := absurd trivial h

/-- `parse_items_processed_body`. -/
def parseItemsProcessedBody (raw : ByteArray) : Except BodyError (List PyStr) :=
  parseBody py itemsProcessedRules raw

end ItemsProcessed

end BeyoManager.StockReport.WebhookBodies
