import BeyoManager.Library.Json
import Mathlib.Data.List.Perm.Subperm

/-! # Canonical JSON texts

Two values are the same when they differ in the order of fields alone. The text with sorted keys
is one for all values that are the same, and it tells the others apart: a text determines its
value, and where it ends inside a longer one.
-/

namespace PyText

section Digits

theorem ofString_append (s t : String) : ofString (s ++ t) = ofString s ++ ofString t := by
  rw [ofString, String.toList_append, List.map_append]
  rfl

theorem ofString_singleton_digitChar {n : ℕ} (h : n < 10) :
    ofString (String.singleton n.digitChar) = [48 + n] := by
  rw [ofString, String.toList_singleton, List.map_singleton, Nat.toNat_digitChar_of_lt_ten h]

theorem decimalValue_repr (n : ℕ) : decimalValue (ofString n.repr) = n := by
  induction n using Nat.strong_induction_on with
  | _ n ih =>
    rcases Nat.lt_or_ge n 10 with h | h
    · rw [Nat.repr_of_lt h, ofString_singleton_digitChar h]
      simp [decimalValue]
    · have hlast : n % 10 < 10 := Nat.mod_lt n (by omega)
      have hrest := ih (n / 10) (by omega)
      rw [decimalValue] at hrest
      rw [Nat.repr_of_ge h, ofString_append, ofString_singleton_digitChar hlast, decimalValue,
        List.foldl_append, hrest]
      simp only [List.foldl_cons, List.foldl_nil]
      omega

theorem all_isDigit_repr (n : ℕ) : (ofString n.repr).all isDigit = true := by
  rw [ofString, List.all_map, Nat.toList_repr, List.all_eq_true]
  intro c hc
  have hdigit := Nat.isDigit_of_mem_toDigits (by omega) (by omega) hc
  simp only [Char.isDigit, Bool.and_eq_true, decide_eq_true_eq] at hdigit
  simp only [Function.comp_apply, isDigit, Bool.and_eq_true, decide_eq_true_eq]
  exact hdigit

theorem ofInt_natCast (n : ℕ) : ofInt n = ofString n.repr := rfl

theorem ofInt_negSucc (n : ℕ) : ofInt (Int.negSucc n) = 45 :: ofString (n + 1).repr :=
  ofString_append "-" _

/-- The integer that a text denotes. -/
def intValue (s : PyStr) : ℤ := if s.head? = some 45 then -decimalValue s.tail else decimalValue s

theorem intValue_ofInt (z : ℤ) : intValue (ofInt z) = z := by
  cases z with
  | ofNat n =>
    have hhead : (ofString n.repr).head? ≠ some 45 := by
      intro h
      obtain ⟨rest, hrest⟩ := List.head?_eq_some_iff.mp h
      have hall := all_isDigit_repr n
      rw [hrest, List.all_cons] at hall
      simp [isDigit] at hall
    rw [Int.ofNat_eq_natCast, ofInt_natCast, intValue, if_neg hhead, decimalValue_repr]
  | negSucc n =>
    rw [ofInt_negSucc, intValue, List.head?_cons, if_pos rfl, List.tail_cons, decimalValue_repr]
    rfl

end Digits

section Encoding

/-- A number above the code points of Unicode. -/
def isBeyond (c : ℕ) : Bool := decide (0x110000 ≤ c)

theorem isBeyond_toNat (c : Char) : isBeyond c.toNat = false := by
  rw [isBeyond, decide_eq_false_iff_not]
  have hvalid := c.valid
  rcases hvalid with h | h
  · change c.toNat < 0xd800 at h
    omega
  · change _ ∧ c.toNat < 0x110000 at h
    omega

theorem map_toNat_map_ofNat {s : PyStr} (hs : s.any isSurrogate = false)
    (hs' : s.any isBeyond = false) : (s.map Char.ofNat).map Char.toNat = s := by
  rw [List.map_map]
  conv_rhs => rw [← List.map_id s]
  apply List.map_congr_left
  intro c hc
  have hvalid : c.isValidChar := by
    have h := List.any_eq_false.mp hs c hc
    have h' := List.any_eq_false.mp hs' c hc
    simp only [isSurrogate, isBeyond, Bool.and_eq_true, decide_eq_true_eq] at h h'
    rw [Nat.isValidChar]
    omega
  exact toNat_ofNat hvalid

theorem encodeUtf8_inj {s t : PyStr} (hs : s.any isBeyond = false) (ht : t.any isBeyond = false)
    {data : ByteArray} (h : encodeUtf8 s = some data) (h' : encodeUtf8 t = some data) : s = t := by
  have hs' := encodeUtf8_isSome.mp (Option.isSome_of_mem h)
  have ht' := encodeUtf8_isSome.mp (Option.isSome_of_mem h')
  have hbytes : (String.ofList (s.map Char.ofNat)).toUTF8 =
      (String.ofList (t.map Char.ofNat)).toUTF8 := by
    rw [encodeUtf8, hs', if_neg (by simp), Option.some.injEq] at h
    rw [encodeUtf8, ht', if_neg (by simp), Option.some.injEq] at h'
    rw [h, h']
  have hchars : s.map Char.ofNat = t.map Char.ofNat :=
    String.ofList_injective (String.toByteArray_inj.mp hbytes)
  rw [← map_toNat_map_ofNat hs' hs, hchars, map_toNat_map_ofNat ht' ht]

end Encoding

end PyText

open PyText

namespace Json

section Same

mutual

/-- Equality of values, for which the order of fields does not matter. -/
def Same : Json → Json → Prop
  | .null, .null => True
  | .bool b, .bool b' => b = b'
  | .int z, .int z' => z = z'
  | .float repr, .float repr' => repr = repr'
  | .str s, .str s' => s = s'
  | .arr items, .arr items' => SameItems items items'
  | .obj fields, .obj fields' => fields.length = fields'.length ∧ SameFields fields fields'
  | _, _ => False

def SameItems : List Json → List Json → Prop
  | [], [] => True
  | item :: items, item' :: items' => Same item item' ∧ SameItems items items'
  | _, _ => False

def SameFields : List (PyStr × Json) → List (PyStr × Json) → Prop
  | [], _ => True
  | (key, value) :: fields, fields' =>
    (∃ value', (key, value') ∈ fields' ∧ Same value value') ∧ SameFields fields fields'

end

/-- A code point of the text of a finite float. -/
def isFloatChar (c : ℕ) : Bool := isDigit c || c == 43 || c == 45 || c == 46 || c == 101

def isFloatMark (c : ℕ) : Bool := c == 46 || c == 101

def IsFloatText (repr : PyStr) : Prop :=
  repr ∈ [ofString "nan", ofString "inf", ofString "-inf"] ∨
    repr.all isFloatChar = true ∧ repr.any isFloatMark = true

mutual

/-- Objects have one field for each key, as dictionaries do, and floats a text of Python. -/
def WellFormed : Json → Prop
  | .float repr => IsFloatText repr
  | .arr items => WellFormedItems items
  | .obj fields => (fields.map Prod.fst).Nodup ∧ WellFormedFields fields
  | .null | .bool _ | .int _ | .str _ => True

def WellFormedItems : List Json → Prop
  | [] => True
  | item :: items => WellFormed item ∧ WellFormedItems items

def WellFormedFields : List (PyStr × Json) → Prop
  | [] => True
  | (_, value) :: fields => WellFormed value ∧ WellFormedFields fields

end

theorem wellFormedItems_iff {items : List Json} :
    WellFormedItems items ↔ ∀ item ∈ items, item.WellFormed := by
  induction items with
  | nil => simp [WellFormedItems]
  | cons item items ih => rw [WellFormedItems, ih, List.forall_mem_cons]

theorem wellFormedFields_iff {fields : List (PyStr × Json)} :
    WellFormedFields fields ↔ ∀ field ∈ fields, field.2.WellFormed := by
  induction fields with
  | nil => simp [WellFormedFields]
  | cons field fields ih => rw [WellFormedFields, ih, List.forall_mem_cons]

theorem sortKeysFields_eq_map (fields : List (PyStr × Json)) :
    sortKeysFields fields = fields.map fun field => (field.1, sortKeys field.2) := by
  induction fields with
  | nil => rfl
  | cons field fields ih => rw [sortKeysFields, ih, List.map_cons]

theorem map_fst_sortKeysFields (fields : List (PyStr × Json)) :
    (sortKeysFields fields).map Prod.fst = fields.map Prod.fst := by
  rw [sortKeysFields_eq_map, List.map_map]
  rfl

/-- Objects with distinct keys sort to one list of fields when each holds the fields of the
other. -/
theorem sortBy_fst_eq_iff {fields fields' : List (PyStr × Json)}
    (hn : (fields.map Prod.fst).Nodup) :
    Sorting.sortBy Prod.fst fields = Sorting.sortBy Prod.fst fields' ↔
      fields.length = fields'.length ∧ fields ⊆ fields' := by
  constructor
  · intro h
    have hperm := (Sorting.sortBy_perm Prod.fst fields).symm.trans
      (h ▸ Sorting.sortBy_perm Prod.fst fields')
    exact ⟨hperm.length_eq, hperm.subset⟩
  · rintro ⟨hlength, hsub⟩
    have hperm : fields.Perm fields' :=
      (List.subperm_of_subset (.of_map _ hn) hsub).perm_of_length_le hlength.ge
    apply Sorting.sortBy_eq_of_perm hperm
    intro a ha b hb hab
    exact List.inj_on_of_nodup_map hn ha hb hab

mutual

theorem same_iff : ∀ v w : Json, v.WellFormed → w.WellFormed →
    (Same v w ↔ v.sortKeys = w.sortKeys)
  | .null, w, _, _ | .bool _, w, _, _ | .int _, w, _, _ | .float _, w, _, _ | .str _, w, _, _ => by
    cases w <;> simp [Same, sortKeys]
  | .arr items, w, hv, hw => by
    cases w with
    | arr items' =>
      rw [Same, sortKeys, sortKeys, arr.injEq]
      exact sameItems_iff items items' hv hw
    | _ => simp [Same, sortKeys]
  | .obj fields, w, hv, hw => by
    cases w with
    | obj fields' =>
      rw [Same, sortKeys, sortKeys, obj.injEq,
        sortBy_fst_eq_iff (by rw [map_fst_sortKeysFields]; exact hv.1),
        sameFields_iff fields fields' hv.2 hw.2, sortKeysFields_eq_map, sortKeysFields_eq_map,
        List.length_map, List.length_map]
    | _ => simp [Same, sortKeys]

theorem sameItems_iff : ∀ items items' : List Json, WellFormedItems items →
    WellFormedItems items' → (SameItems items items' ↔ sortKeysItems items = sortKeysItems items')
  | [], items', _, _ => by cases items' <;> simp [SameItems, sortKeysItems]
  | item :: items, items', hv, hw => by
    cases items' with
    | nil => simp [SameItems, sortKeysItems]
    | cons item' items' =>
      rw [SameItems, sortKeysItems, sortKeysItems, List.cons.injEq, same_iff item item' hv.1 hw.1,
        sameItems_iff items items' hv.2 hw.2]

theorem sameFields_iff : ∀ fields fields' : List (PyStr × Json), WellFormedFields fields →
    WellFormedFields fields' →
      (SameFields fields fields' ↔ sortKeysFields fields ⊆ sortKeysFields fields')
  | [], _, _, _ => by simp [SameFields, sortKeysFields]
  | (key, value) :: fields, fields', hv, hw => by
    rw [SameFields, sortKeysFields, List.cons_subset, sameFields_iff fields fields' hv.2 hw,
      sortKeysFields_eq_map fields', List.mem_map]
    apply and_congr_left'
    constructor
    · rintro ⟨value', hmem, hsame⟩
      have hwf := wellFormedFields_iff.mp hw _ hmem
      exact ⟨_, hmem, by rw [(same_iff value value' hv.1 hwf).mp hsame]⟩
    · rintro ⟨⟨key', value'⟩, hmem, heq⟩
      have hwf := wellFormedFields_iff.mp hw _ hmem
      rw [Prod.mk.injEq] at heq
      obtain ⟨rfl, heq⟩ := heq
      exact ⟨value', hmem, (same_iff value value' hv.1 hwf).mpr heq.symm⟩

end

mutual

theorem WellFormed.sortKeys : ∀ {v : Json}, v.WellFormed → v.sortKeys.WellFormed
  | .null, _ | .bool _, _ | .int _, _ | .str _, _ => trivial
  | .float _, h => h
  | .arr items, h => (WellFormedItems.sortKeys h : WellFormedItems (sortKeysItems items))
  | .obj fields, h => by
    refine ⟨?_, ?_⟩
    · have hperm := (Sorting.sortBy_perm Prod.fst (sortKeysFields fields)).map Prod.fst
      rw [hperm.nodup_iff, map_fst_sortKeysFields]
      exact h.1
    · rw [wellFormedFields_iff]
      intro field hfield
      have hsorted : WellFormedFields (sortKeysFields fields) := WellFormedFields.sortKeys h.2
      have hfields := wellFormedFields_iff.mp hsorted
      exact hfields field (Sorting.mem_sortBy.mp hfield)

theorem WellFormedItems.sortKeys :
    ∀ {items : List Json}, WellFormedItems items → WellFormedItems (sortKeysItems items)
  | [], _ => trivial
  | _ :: _, h => ⟨WellFormed.sortKeys h.1, WellFormedItems.sortKeys h.2⟩

theorem WellFormedFields.sortKeys : ∀ {fields : List (PyStr × Json)},
    WellFormedFields fields → WellFormedFields (sortKeysFields fields)
  | [], _ => trivial
  | (_, _) :: _, h => ⟨WellFormed.sortKeys h.1, WellFormedFields.sortKeys h.2⟩

end

end Same

section Literals

/-- The number that a hexadecimal digit stands for. -/
def hexValue (c : ℕ) : ℕ := if c < 58 then c - 48 else c - 87

theorem hexValue_hexDigit {n : ℕ} (h : n < 16) : hexValue (hexDigit n) = n := by
  unfold hexDigit hexValue
  split_ifs <;> omega

/-- What a letter stands for after a backslash. -/
def unescaped (c : ℕ) : ℕ :=
  if c = 110 then 10 else if c = 114 then 13 else if c = 116 then 9 else if c = 98 then 8
  else if c = 102 then 12 else c

/-- Read the first code point of a literal. -/
def unescape : PyStr → Option (ℕ × PyStr)
  | [] => none
  | c :: rest =>
    if c ≠ 92 then some (c, rest)
    else match rest with
      | [] => none
      | e :: rest =>
        if e ≠ 117 then some (unescaped e, rest)
        else match rest with
          | _ :: _ :: a :: b :: rest => some (16 * hexValue a + hexValue b, rest)
          | _ => none

theorem unescape_escape (c : ℕ) (rest : PyStr) : unescape (escape c ++ rest) = some (c, rest) := by
  unfold escape
  split_ifs with h1 h2 h3 h4 h5 h6 h7 h8
  all_goals try subst c; rfl
  · have hc : 16 * hexValue (hexDigit (c / 16)) + hexValue (hexDigit (c % 16)) = c := by
      rw [hexValue_hexDigit (by omega), hexValue_hexDigit (by omega)]
      omega
    simp [unescape, hc]
  · simp [unescape, h2]

theorem head_escape (c : ℕ) (rest : PyStr) : (escape c ++ rest).head? ≠ some 34 := by
  unfold escape
  split_ifs with h1 <;> simp [h1]

theorem escaped_append_inj : ∀ {s t r r' : PyStr},
    s.flatMap escape ++ 34 :: r = t.flatMap escape ++ 34 :: r' → s = t ∧ r = r'
  | [], [], _, _, h => ⟨rfl, (List.cons.inj h).2⟩
  | [], d :: t, r, r', h => by
    rw [List.flatMap_cons, List.append_assoc] at h
    exact absurd (congrArg List.head? h).symm (head_escape d _)
  | c :: s, [], r, r', h => by
    rw [List.flatMap_cons, List.append_assoc] at h
    exact absurd (congrArg List.head? h) (head_escape c _)
  | c :: s, d :: t, r, r', h => by
    rw [List.flatMap_cons, List.flatMap_cons, List.append_assoc, List.append_assoc] at h
    have hread := congrArg unescape h
    rw [unescape_escape, unescape_escape, Option.some.injEq, Prod.mk.injEq] at hread
    obtain ⟨rfl, hr⟩ := escaped_append_inj hread.2
    exact ⟨by rw [hread.1], hr⟩

theorem quote_append_inj {s t r r' : PyStr} (h : quote s ++ r = quote t ++ r') :
    s = t ∧ r = r' := by
  rw [quote, quote, List.cons_append, List.cons_append, List.append_assoc, List.append_assoc] at h
  exact escaped_append_inj (List.cons.inj h).2

end Literals

section Scalars

/-- What follows a value inside a text: nothing, a comma or a closing bracket. -/
def isStop (c : ℕ) : Bool := c == 44 || c == 93 || c == 125

def Ends (r : PyStr) : Prop := ∀ c ∈ r.head?, isStop c = true

/-- A code point of the texts of null, booleans and numbers. -/
def isScalarChar (c : ℕ) : Bool := !isStop c && c != 34 && c != 91 && c != 123

theorem append_inj_of_ends : ∀ {t t' r r' : PyStr}, t.all isScalarChar = true →
    t'.all isScalarChar = true → Ends r → Ends r' → t ++ r = t' ++ r' → t = t' ∧ r = r'
  | [], [], _, _, _, _, _, _, h => ⟨rfl, h⟩
  | [], c :: t', r, r', _, ht', hr, _, h => by
    have hstop := hr c (by rw [show r = c :: (t' ++ r') from h]; rfl)
    simp [isScalarChar, hstop] at ht'
  | c :: t, [], r, r', ht, _, _, hr', h => by
    have hstop := hr' c (by rw [show r' = c :: (t ++ r) from h.symm]; rfl)
    simp [isScalarChar, hstop] at ht
  | c :: t, d :: t', r, r', ht, ht', hr, hr', h => by
    obtain ⟨rfl, hrest⟩ := List.cons.inj h
    rw [List.all_cons, Bool.and_eq_true] at ht ht'
    obtain ⟨rfl, hr⟩ := append_inj_of_ends ht.2 ht'.2 hr hr' hrest
    exact ⟨rfl, hr⟩

/-- The bracket or quote that a value opens with. -/
def opening : Json → Option ℕ
  | .str _ => some 34
  | .arr _ => some 91
  | .obj _ => some 123
  | .null | .bool _ | .int _ | .float _ => none

/-- A code point of the text of an integer. -/
def isIntChar (c : ℕ) : Bool := isDigit c || c == 45

theorem all_isIntChar_ofInt (z : ℤ) : (ofInt z).all isIntChar = true := by
  have hdigits : ∀ n : ℕ, (ofString n.repr).all isIntChar = true := by
    intro n
    rw [List.all_eq_true]
    intro c hc
    rw [isIntChar, List.all_eq_true.mp (all_isDigit_repr n) c hc, Bool.true_or]
  cases z with
  | ofNat n => exact hdigits n
  | negSucc n =>
    rw [ofInt_negSucc, List.all_cons, hdigits]
    rfl

theorem isScalarChar_of_isFloatChar {c : ℕ} (h : isFloatChar c = true) : isScalarChar c = true := by
  simp only [isFloatChar, isDigit, Bool.or_eq_true, Bool.and_eq_true, decide_eq_true_eq,
    beq_iff_eq] at h
  simp only [isScalarChar, isStop, Bool.and_eq_true, Bool.not_eq_true', Bool.or_eq_false_iff,
    beq_eq_false_iff_ne, bne_iff_ne]
  omega

theorem isFloatChar_of_isIntChar {c : ℕ} (h : isIntChar c = true) : isFloatChar c = true := by
  simp only [isIntChar, Bool.or_eq_true] at h
  rcases h with h | h <;> simp [isFloatChar, h]

/-- The float whose text inside JSON this is. -/
def undumpedFloat (t : PyStr) : PyStr :=
  if t = ofString "NaN" then ofString "nan"
  else if t = ofString "Infinity" then ofString "inf"
  else if t = ofString "-Infinity" then ofString "-inf"
  else t

/-- The null, boolean or number that a text denotes. -/
def readScalar (t : PyStr) : Json :=
  if t = ofString "null" then .null
  else if t = ofString "true" then .bool true
  else if t = ofString "false" then .bool false
  else if t.all isIntChar then .int (intValue t)
  else .float (undumpedFloat t)

theorem ne_of_all_isFloatChar {t : PyStr} (h : t.all isFloatChar = true) {s : String}
    (hs : (ofString s).all isFloatChar = false) : t ≠ ofString s := by
  rintro rfl
  rw [h] at hs
  cases hs

theorem readScalar_int (z : ℤ) : readScalar (ofInt z) = .int z := by
  have hall := all_isIntChar_ofInt z
  have hfloat : (ofInt z).all isFloatChar = true := by
    rw [List.all_eq_true] at hall ⊢
    exact fun c hc => isFloatChar_of_isIntChar (hall c hc)
  rw [readScalar, if_neg (ne_of_all_isFloatChar hfloat (by decide)),
    if_neg (ne_of_all_isFloatChar hfloat (by decide)),
    if_neg (ne_of_all_isFloatChar hfloat (by decide)), if_pos hall, intValue_ofInt]

theorem readScalar_float {repr : PyStr} (h : IsFloatText repr) :
    readScalar (dumpsFloat repr) = .float repr := by
  rcases h with h | ⟨hall, hany⟩
  · simp only [List.mem_cons, List.not_mem_nil, or_false] at h
    rcases h with rfl | rfl | rfl <;> rfl
  · have hne : ∀ s : String, (ofString s).all isFloatChar = false → repr ≠ ofString s :=
      fun s => ne_of_all_isFloatChar hall
    have hint : repr.all isIntChar = false := by
      rw [List.all_eq_false]
      obtain ⟨c, hc, hmark⟩ := List.any_eq_true.mp hany
      refine ⟨c, hc, ?_⟩
      simp only [isFloatMark, Bool.or_eq_true, beq_iff_eq] at hmark
      rcases hmark with rfl | rfl <;> decide
    rw [dumpsFloat, if_neg (hne _ (by decide)), if_neg (hne _ (by decide)),
      if_neg (hne _ (by decide)), readScalar, if_neg (hne _ (by decide)),
      if_neg (hne _ (by decide)), if_neg (hne _ (by decide)), hint, if_neg (by simp),
      undumpedFloat, if_neg (hne _ (by decide)), if_neg (hne _ (by decide)),
      if_neg (hne _ (by decide))]

theorem readScalar_dumps {v : Json} (hv : v.WellFormed) (h : v.opening = none) :
    readScalar v.dumps = v := by
  cases v with
  | null => rfl
  | bool b => cases b <;> rfl
  | int z => exact readScalar_int z
  | float repr => exact readScalar_float hv
  | str | arr | obj => cases h

theorem all_isScalarChar_dumps {v : Json} (hv : v.WellFormed) (h : v.opening = none) :
    v.dumps.all isScalarChar = true := by
  cases v with
  | null => rfl
  | bool b => cases b <;> rfl
  | int z =>
    rw [dumps, List.all_eq_true]
    intro c hc
    exact isScalarChar_of_isFloatChar
      (isFloatChar_of_isIntChar (List.all_eq_true.mp (all_isIntChar_ofInt z) c hc))
  | float repr =>
    rw [dumps, dumpsFloat]
    split_ifs with h1 h2 h3
    · rfl
    · rfl
    · rfl
    · rcases hv with hv | ⟨hall, -⟩
      · simp [h1, h2, h3] at hv
      · rw [List.all_eq_true] at hall ⊢
        exact fun c hc => isScalarChar_of_isFloatChar (hall c hc)
  | str | arr | obj => cases h

theorem dumps_ne_nil {v : Json} (hv : v.WellFormed) : v.dumps ≠ [] := by
  cases v with
  | null => decide
  | bool b => cases b <;> decide
  | int z =>
    intro h
    have := congrArg List.length (show ofInt z = [] from h)
    cases z with
    | ofNat n =>
      rw [Int.ofNat_eq_natCast, ofInt_natCast, ofString, List.length_map, Nat.toList_repr] at this
      exact absurd this Nat.length_toDigits_pos.ne'
    | negSucc n => simp [ofInt_negSucc] at this
  | float repr =>
    rw [dumps, dumpsFloat]
    split_ifs with h1 h2 h3
    · decide
    · decide
    · decide
    · rintro rfl
      rcases hv with hv | ⟨-, hany⟩
      · simp [h1, h2, h3] at hv
      · cases hany
  | str | arr | obj => simp [dumps, quote]

end Scalars

section Injective

variable {v w : Json} {r r' : PyStr}

theorem head_dumps (hv : v.WellFormed) : ∃ c rest, v.dumps = c :: rest ∧
    (v.opening = some c ∨ v.opening = none ∧ isScalarChar c = true) := by
  cases h : v.opening with
  | none =>
    obtain ⟨c, rest, hdumps⟩ := List.exists_cons_of_ne_nil (dumps_ne_nil hv)
    have hall := all_isScalarChar_dumps hv h
    rw [hdumps, List.all_cons, Bool.and_eq_true] at hall
    exact ⟨c, rest, hdumps, .inr ⟨rfl, hall.1⟩⟩
  | some c =>
    cases v with
    | str | arr | obj =>
      cases h
      exact ⟨_, _, rfl, .inl rfl⟩
    | _ => cases h

theorem not_isScalarChar_of_opening {c : ℕ} (h : v.opening = some c) : isScalarChar c = false := by
  cases v with
  | str | arr | obj =>
    cases h
    rfl
  | _ => cases h

theorem opening_eq_of_append (hv : v.WellFormed) (hw : w.WellFormed)
    (h : v.dumps ++ r = w.dumps ++ r') : v.opening = w.opening := by
  obtain ⟨c, rest, hc, hopen⟩ := head_dumps hv
  obtain ⟨d, rest', hd, hopen'⟩ := head_dumps hw
  rw [hc, hd, List.cons_append, List.cons_append] at h
  obtain rfl := (List.cons.inj h).1
  rcases hopen with hopen | ⟨hopen, hscalar⟩
  · rcases hopen' with hopen' | ⟨-, hscalar⟩
    · rw [hopen, hopen']
    · rw [not_isScalarChar_of_opening hopen] at hscalar
      cases hscalar
  · rcases hopen' with hopen' | ⟨hopen', -⟩
    · rw [not_isScalarChar_of_opening hopen'] at hscalar
      cases hscalar
    · rw [hopen, hopen']

theorem stop_ne_dumps {c : ℕ} (hv : v.WellFormed) (hc : isStop c = true) :
    c :: r ≠ v.dumps ++ r' := by
  intro h
  obtain ⟨d, rest, hd, hopen⟩ := head_dumps hv
  rw [hd, List.cons_append] at h
  obtain rfl := (List.cons.inj h).1
  rcases hopen with hopen | ⟨-, hscalar⟩
  · cases v with
    | str | arr | obj =>
      cases hopen
      cases hc
    | _ => cases hopen
  · simp [isScalarChar, hc] at hscalar

def itemsTail : List Json → PyStr
  | [] => []
  | item :: items => 44 :: (dumpsItems (item :: items)).flatten

def fieldsTail : List (PyStr × Json) → PyStr
  | [] => []
  | field :: fields => 44 :: (dumpsFields (field :: fields)).flatten

theorem flatten_dumpsItems_cons (item : Json) (items : List Json) :
    (dumpsItems (item :: items)).flatten = item.dumps ++ itemsTail items := by
  cases items with
  | nil => simp [dumpsItems, itemsTail]
  | cons next items => simp [dumpsItems, itemsTail]

theorem flatten_dumpsFields_cons (key : PyStr) (value : Json) (fields : List (PyStr × Json)) :
    (dumpsFields ((key, value) :: fields)).flatten =
      quote key ++ 58 :: (value.dumps ++ fieldsTail fields) := by
  cases fields with
  | nil => simp [dumpsFields, fieldsTail]
  | cons next fields => simp [dumpsFields, fieldsTail]

theorem ends_itemsTail (items : List Json) : Ends (itemsTail items ++ 93 :: r) := by
  cases items with
  | nil =>
    rintro c ⟨⟩
    rfl
  | cons item items =>
    rintro c ⟨⟩
    rfl

theorem ends_fieldsTail (fields : List (PyStr × Json)) :
    Ends (fieldsTail fields ++ 125 :: r) := by
  cases fields with
  | nil =>
    rintro c ⟨⟩
    rfl
  | cons field fields =>
    rintro c ⟨⟩
    rfl

mutual

/-- A text determines its value, and where it ends inside a longer text. -/
theorem dumps_append_inj : ∀ (v w : Json) {r r' : PyStr}, v.WellFormed → w.WellFormed →
    Ends r → Ends r' → v.dumps ++ r = w.dumps ++ r' → v = w ∧ r = r'
  | .str s, w, r, r', hv, hw, _, _, h => by
    have hopen := opening_eq_of_append hv hw h
    cases w with
    | str t =>
      obtain ⟨rfl, hr⟩ := quote_append_inj h
      exact ⟨rfl, hr⟩
    | _ => simp [opening] at hopen
  | .arr items, w, r, r', hv, hw, _, _, h => by
    have hopen := opening_eq_of_append hv hw h
    cases w with
    | arr items' =>
      have htext : (dumpsItems items).flatten ++ 93 :: r =
        (dumpsItems items').flatten ++ 93 :: r' := by
        simpa [dumps] using h
      cases items with
      | nil =>
        cases items' with
        | nil => exact ⟨rfl, (List.cons.inj htext).2⟩
        | cons item' items' =>
          rw [flatten_dumpsItems_cons, List.append_assoc] at htext
          exact absurd htext (stop_ne_dumps hw.1 rfl)
      | cons item items =>
        cases items' with
        | nil =>
          rw [flatten_dumpsItems_cons, List.append_assoc] at htext
          exact absurd htext.symm (stop_ne_dumps hv.1 rfl)
        | cons item' items' =>
          obtain ⟨heq, hr⟩ := itemsTail_append_inj (item :: items) (item' :: items') hv hw
            (congrArg (List.cons 44) htext)
          exact ⟨by rw [heq], hr⟩
    | _ => simp [opening] at hopen
  | .obj fields, w, r, r', hv, hw, _, _, h => by
    have hopen := opening_eq_of_append hv hw h
    cases w with
    | obj fields' =>
      have htext : (dumpsFields fields).flatten ++ 125 :: r =
          (dumpsFields fields').flatten ++ 125 :: r' := by simpa [dumps] using h
      cases fields with
      | nil =>
        cases fields' with
        | nil => exact ⟨rfl, (List.cons.inj htext).2⟩
        | cons field' fields' =>
          rw [flatten_dumpsFields_cons, quote] at htext
          exact absurd (congrArg List.head? htext) (by simp [dumpsFields])
      | cons field fields =>
        cases fields' with
        | nil =>
          rw [flatten_dumpsFields_cons, quote] at htext
          exact absurd (congrArg List.head? htext) (by simp [dumpsFields])
        | cons field' fields' =>
          obtain ⟨heq, hr⟩ := fieldsTail_append_inj (field :: fields) (field' :: fields') hv.2 hw.2
            (congrArg (List.cons 44) htext)
          exact ⟨by rw [heq], hr⟩
    | _ => simp [opening] at hopen
  | .null, w, r, r', hv, hw, hr, hr', h | .bool _, w, r, r', hv, hw, hr, hr', h
  | .int _, w, r, r', hv, hw, hr, hr', h | .float _, w, r, r', hv, hw, hr, hr', h => by
    have hopen := (opening_eq_of_append hv hw h).symm
    obtain ⟨htext, hr⟩ := append_inj_of_ends (all_isScalarChar_dumps hv rfl)
      (all_isScalarChar_dumps hw hopen) hr hr' h
    have hread := congrArg readScalar htext
    rw [readScalar_dumps hv rfl, readScalar_dumps hw hopen] at hread
    exact ⟨hread, hr⟩

theorem itemsTail_append_inj : ∀ (items items' : List Json) {r r' : PyStr},
    WellFormedItems items → WellFormedItems items' →
      itemsTail items ++ 93 :: r = itemsTail items' ++ 93 :: r' → items = items' ∧ r = r'
  | [], [], _, _, _, _, h => ⟨rfl, (List.cons.inj h).2⟩
  | [], _ :: _, _, _, _, _, h => absurd (congrArg List.head? h) (by simp [itemsTail])
  | _ :: _, [], _, _, _, _, h => absurd (congrArg List.head? h) (by simp [itemsTail])
  | item :: items, item' :: items', r, r', hv, hw, h => by
    rw [itemsTail, itemsTail, List.cons_append, List.cons_append, flatten_dumpsItems_cons,
      flatten_dumpsItems_cons, List.append_assoc, List.append_assoc] at h
    have htext := (List.cons.inj h).2
    obtain ⟨rfl, hrest⟩ := dumps_append_inj item item' hv.1 hw.1 (ends_itemsTail _)
      (ends_itemsTail _) htext
    obtain ⟨rfl, hr⟩ := itemsTail_append_inj items items' hv.2 hw.2 hrest
    exact ⟨rfl, hr⟩

theorem fieldsTail_append_inj : ∀ (fields fields' : List (PyStr × Json)) {r r' : PyStr},
    WellFormedFields fields → WellFormedFields fields' →
      fieldsTail fields ++ 125 :: r = fieldsTail fields' ++ 125 :: r' → fields = fields' ∧ r = r'
  | [], [], _, _, _, _, h => ⟨rfl, (List.cons.inj h).2⟩
  | [], _ :: _, _, _, _, _, h => absurd (congrArg List.head? h) (by simp [fieldsTail])
  | _ :: _, [], _, _, _, _, h => absurd (congrArg List.head? h) (by simp [fieldsTail])
  | (key, value) :: fields, (key', value') :: fields', r, r', hv, hw, h => by
    rw [fieldsTail, fieldsTail, List.cons_append, List.cons_append, flatten_dumpsFields_cons,
      flatten_dumpsFields_cons, List.append_assoc, List.append_assoc, List.cons_append,
      List.cons_append, List.append_assoc, List.append_assoc] at h
    have htext := (List.cons.inj h).2
    obtain ⟨rfl, hvalue⟩ := quote_append_inj htext
    obtain ⟨rfl, hrest⟩ := dumps_append_inj value value' hv.1 hw.1 (ends_fieldsTail _)
      (ends_fieldsTail _) (List.cons.inj hvalue).2
    obtain ⟨rfl, hr⟩ := fieldsTail_append_inj fields fields' hv.2 hw.2 hrest
    exact ⟨rfl, hr⟩

end

theorem dumps_inj (hv : v.WellFormed) (hw : w.WellFormed) : v.dumps = w.dumps ↔ v = w := by
  have hends : Ends [] := by
    rintro c ⟨⟩
  constructor
  · intro h
    have happend : v.dumps ++ [] = w.dumps ++ [] := by rw [h]
    exact (dumps_append_inj v w hv hw hends hends happend).1
  · rintro rfl
    rfl

/-- The canonical text is one for the values that are the same, and for no others. -/
theorem canonical_eq_iff (hv : v.WellFormed) (hw : w.WellFormed) :
    v.sortKeys.dumps = w.sortKeys.dumps ↔ Same v w := by
  rw [dumps_inj hv.sortKeys hw.sortKeys, same_iff v w hv hw]

end Injective

end Json
