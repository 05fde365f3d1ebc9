import BeyoManager.Library.Dict
import BeyoManager.Library.Json
import BeyoManager.Library.Sorting
import BeyoManager.Library.Transition

/-! # Matching items against stock criteria

The Scanner's criteria are normalised when they are stored. To judge an item, its
properties are gathered in a bag of strings, and each criterion is compared with the
tokens of the bag's value. Lower case is Python's, and a parameter here.
-/

namespace BeyoManager.StockReport.CriteriaMatcher

open PyText Sorting Transition

/-- `StockCriteriaMismatchReasonEnum`. -/
inductive MismatchReason
  | missingOnItem
  | valueNotAccepted
  | noGroupForValue
  | criterionNotUnderstood
  deriving DecidableEq, Repr

/-- `CriterionFailure`. -/
structure CriterionFailure where
  key : PyStr
  reason : MismatchReason
  acceptedValues : List Json
  itemValues : List PyStr

inductive MatchError
  /-- `int` of a text with too many digits. -/
  | valueError
  /-- `in` on a value that is not a container. -/
  | typeError
  deriving DecidableEq, Repr

/-- A dictionary decoded from JSON. -/
abbrev Fields := List (PyStr × Json)

/-- What the matcher reads of an item. -/
structure MatchedItem where
  properties : Option Fields
  quantity : ℤ

abbrev Bag := List (PyStr × PyStr)

/-- `bag.get(key)`. -/
def Bag.get (bag : Bag) (key : PyStr) : Option PyStr :=
  (bag.find? fun e => e.1 = key).map Prod.snd

section ScannerTables

def woodTypeKey : PyStr := ofString "wood_type"

def woodGroupKey : PyStr := ofString "wood_group"

def drawersQtyKey : PyStr := ofString "drawers_qty"

def drawersRangeKey : PyStr := ofString "drawers_range"

def quantityKey : PyStr := ofString "quantity"

/-- `EXCLUDED_ITEM_PROPERTY_KEYS`. -/
def excludedItemPropertyKeys : List PyStr :=
  ["qty_extensions", "quantity", "wood_group", "drawers_range"].map ofString

/-- `WOOD_GROUPS`. -/
def woodGroups : List (PyStr × List PyStr) :=
  [("Dark", ["Mahogany", "Santos Rosewood", "Rosewood", "Dark Oak", "Dark Teak", "Walnut"]),
    ("Teak", ["Teak", "Cherry"]),
    ("Light", ["Oak", "Beech", "Pine", "Birch", "Elm"])].map fun (group, values) =>
      (ofString group, values.map ofString)

/-- `DRAWER_RANGES`. -/
def drawerRanges : List (PyStr × ℕ × Option ℕ) :=
  [(ofString "1-2", 1, some 2), (ofString "3-5", 3, some 5), (ofString "6+", 6, none)]

/-- `ITEM_VALUE_ALIASES`. -/
def itemValueAliases : List (PyStr × List (PyStr × PyStr)) :=
  [(ofString "shape", [(ofString "squared", ofString "square")])]

/-- `ITEM_KEY_ALIASES`. -/
def itemKeyAliases : List (PyStr × List PyStr) := [(woodTypeKey, [ofString "material_type"])]

end ScannerTables

variable (lower : PyStr → PyStr)

section Normalization

def normalizeValue : Json → Json
  | .str s => if strip s ≠ [] then .arr [.str (lower (strip s))] else .str s
  | .arr items =>
    let texts := items.filterMap fun
      | .str s => some s
      | _ => none
    if items ≠ [] ∧ items.all Json.isStr ∧ texts.any fun s => strip s ≠ [] then
      .arr ((sortBy id ((texts.map fun s => lower (strip s)).filter (· ≠ [])).eraseDups).map .str)
    else .arr items
  | value => value

/-- `normalize_stock_criteria`. -/
def normalizeStockCriteria (raw : Fields) : Fields :=
  raw.map fun (key, value) => (key, normalizeValue lower value)

end Normalization

section Tokens

/-- `[,/]`. -/
def isSeparator (c : ℕ) : Bool := c == 44 || c == 47

/-- `tokenize_property_value`. -/
def tokenizePropertyValue (value : PyStr) : List PyStr :=
  ((value.splitOnP isSeparator).filter fun part => strip part ≠ []).map fun part =>
    lower (strip part)

/-- `canonical_item_token`. -/
def canonicalItemToken (key token : PyStr) : PyStr :=
  match itemValueAliases.find? fun e => e.1 = key with
  | some (_, aliases) => ((aliases.find? fun e => e.1 = token).map Prod.snd).getD token
  | none => token

/-- `_item_tokens`. -/
def itemTokens (key value : PyStr) : List PyStr :=
  (tokenizePropertyValue lower value).map (canonicalItemToken key)

/-- `wood_group_of_token`. -/
def woodGroupOfToken (token : PyStr) : Option PyStr :=
  (woodGroups.find? fun e => e.2.any fun value => lower value = lower (strip token)).map Prod.fst

/-- `drawer_range_of`. -/
def drawerRangeOf (stored : PyStr) : Except MatchError (Option PyStr) :=
  let value := strip stored
  if isDecimal value then
    if maxStrDigits < value.length then .error .valueError
    else
      let number := decimalValue value
      .ok ((drawerRanges.find? fun (_, minimum, maximum) =>
        decide (minimum ≤ number) && maximum.all fun m => decide (number ≤ m)).map Prod.fst)
  else .ok none

end Tokens

section Bag

/-- `_property_value`. -/
def propertyValue : Json → Option PyStr
  | .str s => some s
  | .bool b => some (ofString (if b then "true" else "false"))
  | .int z => some (ofInt z)
  | .float repr => some (removeSuffix (ofString ".0") repr)
  | .arr items => some (Json.arr items).dumps
  | .obj fields => some (Json.obj fields).dumps
  | .null => none

/-- The trimmed properties; keys that become equal keep the last value in the order of keys. -/
def trimmedProperties (properties : Fields) : Bag :=
  (sortBy Prod.fst properties).foldl (fun bag (key, value) =>
    match propertyValue value with
    | some text =>
      if strip key ≠ [] ∧ strip text ≠ [] then Dict.set bag (strip key) (strip text) else bag
    | none => bag) []

def withKeyAlias (bag : Bag) (entry : PyStr × List PyStr) : Bag :=
  if entry.1 ∈ bag.map Prod.fst then bag
  else match entry.2.find? fun other => other ∈ bag.map Prod.fst with
    | some other => Dict.set bag entry.1 ((bag.get other).getD [])
    | none => bag

def withWoodGroup (bag : Bag) : Bag :=
  match bag.get woodTypeKey with
  | some wood =>
    match (tokenizePropertyValue lower wood).head? with
    | some token =>
      match woodGroupOfToken lower token with
      | some group => Dict.set bag woodGroupKey group
      | none => bag
    | none => bag
  | none => bag

def bagBeforeDrawers (item : MatchedItem) : Bag :=
  let trimmed := trimmedProperties (item.properties.getD [])
  let kept := trimmed.filter fun e => e.1 ∉ excludedItemPropertyKeys
  let aliased := itemKeyAliases.foldl withKeyAlias kept
  withWoodGroup lower (Dict.set aliased quantityKey (ofInt item.quantity))

def withDrawersRange (bag : Bag) : Except MatchError Bag :=
  match bag.get drawersQtyKey with
  | none => .ok bag
  | some drawers =>
    (drawerRangeOf drawers).map fun drawerRange =>
      match drawerRange with
      | some label => Dict.set bag drawersRangeKey label
      | none => bag

/-- `build_item_property_bag`. -/
def buildItemPropertyBag (item : MatchedItem) : Except MatchError Bag :=
  withDrawersRange (bagBeforeDrawers lower item)

end Bag

section Evaluation

/-- `token in accepted`. -/
def isIn (token : PyStr) : Json → Except MatchError Bool
  | .arr items => .ok (items.any (Json.eqStr token))
  | .str s => .ok (contains s token)
  | .obj fields => .ok (fields.any fun field => decide (field.1 = token))
  | .null | .bool _ | .int _ | .float _ => .error .typeError

/-- `any(token in accepted for token in tokens)`. -/
def anyIn (accepted : Json) : List PyStr → Except MatchError Bool
  | [] => .ok false
  | token :: tokens => do
    let found ← isIn token accepted
    if found then pure true else anyIn accepted tokens

/-- `tuple(accepted) if isinstance(accepted, list) else ()`. -/
def acceptedValues : Json → List Json
  | .arr items => items
  | _ => []

def sourceKey (key : PyStr) : Option PyStr :=
  if key = woodGroupKey then some woodTypeKey
  else if key = drawersRangeKey then some drawersQtyKey
  else none

def absentFailure (bag : Bag) (key : PyStr) (accepted : Json) : CriterionFailure :=
  match (sourceKey key).bind bag.get with
  | some sourceValue =>
    ⟨key, .noGroupForValue, acceptedValues accepted, tokenizePropertyValue lower sourceValue⟩
  | none => ⟨key, .missingOnItem, acceptedValues accepted, []⟩

/-- The failure of a criterion with a value to look in, by the tokens of the item. -/
def judgeTokens (key : PyStr) (accepted : Json) :
    List PyStr → Except MatchError (Option CriterionFailure)
  | [] => .ok (some ⟨key, .missingOnItem, acceptedValues accepted, []⟩)
  | token :: tokens => do
    let found ← anyIn accepted (token :: tokens)
    pure (if found then none
      else some ⟨key, .valueNotAccepted, acceptedValues accepted, token :: tokens⟩)

def evaluateCriterion (bag : Bag) (key : PyStr) (accepted : Json) :
    Except MatchError (Option CriterionFailure) :=
  match accepted, bag.get key with
  | .arr [], value =>
    .ok (some ⟨key, .criterionNotUnderstood, [], (value.map (itemTokens lower key)).getD []⟩)
  | accepted, none => .ok (some (absentFailure lower bag key accepted))
  | .null, some _ => .ok none
  | accepted, some value => judgeTokens key accepted (itemTokens lower key value)

/-- `evaluate_stock_criteria`. -/
def evaluateStockCriteria (item : MatchedItem) (criteria : Fields) :
    Except MatchError (List CriterionFailure) := do
  let bag ← buildItemPropertyBag lower item
  let failures ← criteria.mapM fun (key, accepted) => evaluateCriterion lower bag key accepted
  pure (sortBy CriterionFailure.key failures.reduceOption)

/-- `matches_stock_criteria`. -/
def matchesStockCriteria (item : MatchedItem) (criteria : Fields) : Except MatchError Bool := do
  let failures ← evaluateStockCriteria lower item criteria
  pure failures.isEmpty

end Evaluation

end BeyoManager.StockReport.CriteriaMatcher
