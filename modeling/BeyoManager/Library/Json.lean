import BeyoManager.Library.PyText
import BeyoManager.Library.Sorting

/-! # JSON values

The values that Python decodes a JSON text to. An object lists its fields in order; a
float is given by the text that Python prints for it, which determines it.
-/

open PyText

/-- A decoded JSON value. -/
inductive Json
  | null
  | bool (b : Bool)
  | int (z : ℤ)
  | float (repr : PyStr)
  | str (s : PyStr)
  | arr (items : List Json)
  | obj (fields : List (PyStr × Json))

namespace Json

/-- `isinstance(value, str)`. -/
def isStr : Json → Bool
  | .str _ => true
  | _ => false

/-- `value == s`, for a string. -/
def eqStr (s : PyStr) : Json → Bool
  | .str t => decide (s = t)
  | _ => false

theorem eqStr_iff {s : PyStr} {value : Json} : value.eqStr s ↔ value = .str s := by
  cases value <;> simp [eqStr, eq_comm]

section Dumps

def hexDigit (n : ℕ) : ℕ := if n < 10 then 48 + n else 87 + n

/-- A code point inside a string literal, with `ensure_ascii=False`. -/
def escape (c : ℕ) : PyStr :=
  if c = 34 then [92, 34]
  else if c = 92 then [92, 92]
  else if c = 10 then [92, 110]
  else if c = 13 then [92, 114]
  else if c = 9 then [92, 116]
  else if c = 8 then [92, 98]
  else if c = 12 then [92, 102]
  else if c < 32 then [92, 117, 48, 48, hexDigit (c / 16), hexDigit (c % 16)]
  else [c]

def quote (s : PyStr) : PyStr := 34 :: (s.flatMap escape ++ [34])

/-- A float inside a JSON text. -/
def dumpsFloat (repr : PyStr) : PyStr :=
  if repr = ofString "nan" then ofString "NaN"
  else if repr = ofString "inf" then ofString "Infinity"
  else if repr = ofString "-inf" then ofString "-Infinity"
  else repr

mutual

/-- `json.dumps(value, separators=(",", ":"), ensure_ascii=False)`. -/
def dumps : Json → PyStr
  | .null => ofString "null"
  | .bool b => ofString (if b then "true" else "false")
  | .int z => ofInt z
  | .float repr => dumpsFloat repr
  | .str s => quote s
  | .arr items => 91 :: ((dumpsItems items).flatten ++ [93])
  | .obj fields => 123 :: ((dumpsFields fields).flatten ++ [125])

/-- The items of an array, each after the first with a comma before it. -/
def dumpsItems : List Json → List PyStr
  | [] => []
  | [item] => [dumps item]
  | item :: next :: items => dumps item :: [44] :: dumpsItems (next :: items)

def dumpsFields : List (PyStr × Json) → List PyStr
  | [] => []
  | [(key, value)] => [quote key ++ 58 :: dumps value]
  | (key, value) :: next :: fields =>
    (quote key ++ 58 :: dumps value) :: [44] :: dumpsFields (next :: fields)

end

mutual

/-- The value with the fields of every object in the order of their keys, for `sort_keys`. -/
def sortKeys : Json → Json
  | .arr items => .arr (sortKeysItems items)
  | .obj fields => .obj (Sorting.sortBy Prod.fst (sortKeysFields fields))
  | value => value

def sortKeysItems : List Json → List Json
  | [] => []
  | item :: items => sortKeys item :: sortKeysItems items

def sortKeysFields : List (PyStr × Json) → List (PyStr × Json)
  | [] => []
  | (key, value) :: fields => (key, sortKeys value) :: sortKeysFields fields

end

end Dumps

section Texts

mutual

/-- The strings inside a value: those of its keys, and the texts of its floats. -/
def texts : Json → List PyStr
  | .str s => [s]
  | .float repr => [repr]
  | .arr items => textsItems items
  | .obj fields => textsFields fields
  | .null | .bool _ | .int _ => []

def textsItems : List Json → List PyStr
  | [] => []
  | item :: items => texts item ++ textsItems items

def textsFields : List (PyStr × Json) → List PyStr
  | [] => []
  | (key, value) :: fields => key :: (texts value ++ textsFields fields)

end

theorem textsFields_eq_flatMap (fields : List (PyStr × Json)) :
    textsFields fields = fields.flatMap fun field => field.1 :: texts field.2 := by
  induction fields with
  | nil => rfl
  | cons field fields ih => rw [textsFields, ih, List.flatMap_cons, List.cons_append]

variable {p : PyStr → Bool}

mutual

theorem any_texts_sortKeys : ∀ value : Json, value.sortKeys.texts.any p = value.texts.any p
  | .arr items => by
    rw [sortKeys, texts, texts]
    exact any_textsItems_sortKeys items
  | .obj fields => by
    rw [sortKeys, texts, texts, ← any_textsFields_sortKeys fields]
    rw [textsFields_eq_flatMap, textsFields_eq_flatMap, List.any_flatMap, List.any_flatMap]
    exact (Sorting.sortBy_perm _ _).any_eq
  | .null | .bool _ | .int _ | .float _ | .str _ => by rw [sortKeys]; all_goals simp

theorem any_textsItems_sortKeys :
    ∀ items : List Json, (textsItems (sortKeysItems items)).any p = (textsItems items).any p
  | [] => rfl
  | item :: items => by
    rw [sortKeysItems, textsItems, textsItems, List.any_append, List.any_append,
      any_texts_sortKeys item, any_textsItems_sortKeys items]

theorem any_textsFields_sortKeys : ∀ fields : List (PyStr × Json),
    (textsFields (sortKeysFields fields)).any p = (textsFields fields).any p
  | [] => rfl
  | (key, value) :: fields => by
    rw [sortKeysFields, textsFields, textsFields, List.any_cons, List.any_cons, List.any_append,
      List.any_append, any_texts_sortKeys value, any_textsFields_sortKeys fields]

end

section Characters

variable {q : ℕ → Bool} (hq : ∀ c : Char, q c.toNat = false)

include hq

theorem any_ofString (s : String) : (ofString s).any q = false := by
  rw [ofString, List.any_map, List.any_eq_false]
  intro c _
  simp [hq c]

theorem any_escape (c : ℕ) : (escape c).any q = q c := by
  have hlow : ∀ n < 128, q n = false := by
    intro n hn
    have := hq (Char.ofNat n)
    rwa [toNat_ofNat (.inl (by omega))] at this
  have hdigit : ∀ n < 16, q (hexDigit n) = false := by
    intro n hn
    apply hlow
    unfold hexDigit
    split <;> omega
  unfold escape
  split_ifs with h1 h2 h3 h4 h5 h6 h7 h8
  all_goals try subst c; simp [hlow]
  · rw [hlow c (by omega)]
    simp [hlow, hdigit (c / 16) (by omega), hdigit (c % 16) (by omega)]
  · simp

theorem any_quote (s : PyStr) : (quote s).any q = s.any q := by
  have hmark : q 34 = false := hq '"'
  rw [quote, List.any_cons, List.any_append, List.any_flatMap]
  simp only [any_escape hq]
  simp [hmark]

theorem any_dumpsFloat (repr : PyStr) : (dumpsFloat repr).any q = repr.any q := by
  unfold dumpsFloat
  split_ifs with h1 h2 h3
  · rw [h1, any_ofString hq, any_ofString hq]
  · rw [h2, any_ofString hq, any_ofString hq]
  · rw [h3, any_ofString hq, any_ofString hq]
  · rfl

theorem any_marks : q 44 = false ∧ q 58 = false ∧ q 91 = false ∧ q 93 = false ∧ q 123 = false ∧
    q 125 = false := ⟨hq ',', hq ':', hq '[', hq ']', hq (Char.ofNat 123), hq (Char.ofNat 125)⟩

mutual

/-- The JSON text of a value has such a code point when one of its strings has one. -/
theorem any_dumps : ∀ value : Json, value.dumps.any q = value.texts.any fun s => s.any q
  | .null | .bool _ => by rw [dumps, any_ofString hq]; rfl
  | .int _ => by rw [dumps, ofInt, any_ofString hq]; rfl
  | .float repr => by
    rw [dumps, any_dumpsFloat hq, texts, List.any_cons, List.any_nil, Bool.or_false]
  | .str s => by rw [dumps, any_quote hq, texts, List.any_cons, List.any_nil, Bool.or_false]
  | .arr items => by
    rw [dumps, texts, ← any_dumpsItems items, List.any_cons, List.any_append]
    simp [any_marks hq]
  | .obj fields => by
    rw [dumps, texts, ← any_dumpsFields fields, List.any_cons, List.any_append]
    simp [any_marks hq]

theorem any_dumpsItems : ∀ items : List Json,
    (dumpsItems items).flatten.any q = (textsItems items).any fun s => s.any q
  | [] => rfl
  | [item] => by
    rw [dumpsItems, textsItems, textsItems, List.append_nil, ← any_dumps item]
    simp
  | item :: next :: items => by
    rw [dumpsItems, textsItems, List.any_append, ← any_dumps item,
      ← any_dumpsItems (next :: items)]
    simp [any_marks hq]

theorem any_dumpsFields : ∀ fields : List (PyStr × Json),
    (dumpsFields fields).flatten.any q = (textsFields fields).any fun s => s.any q
  | [] => rfl
  | [(key, value)] => by
    rw [dumpsFields, textsFields, textsFields, List.append_nil, List.any_cons, ← any_dumps value,
      ← any_quote hq key]
    simp [any_marks hq]
  | (key, value) :: next :: fields => by
    rw [dumpsFields, textsFields, List.any_cons, List.any_append, ← any_dumps value,
      ← any_dumpsFields (next :: fields), ← any_quote hq key]
    simp [any_marks hq]

end

end Characters

theorem any_isSurrogate_dumps (value : Json) :
    value.dumps.any isSurrogate = value.texts.any fun s => s.any isSurrogate :=
  any_dumps isSurrogate_toNat value

end Texts

end Json
