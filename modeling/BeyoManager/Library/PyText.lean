import Mathlib.Data.List.DropRight
import Mathlib.Data.List.Infix
import Mathlib.Data.List.Lex

/-! # Python's strings

A string of Python is a sequence of code points, among which there may be lone
surrogates. It is a list of natural numbers here, ordered as Python orders strings;
where no surrogate can occur, it is a string of Lean.
-/

namespace PyText

/-- A string, as its code points. -/
abbrev PyStr := List ℕ

/-- The code points of a literal. -/
def ofString (s : String) : PyStr := s.toList.map Char.toNat

/-- The code points for which `str.isspace` holds. -/
def isSpace (n : ℕ) : Bool :=
  (0x09 ≤ n && n ≤ 0x0d) || (0x1c ≤ n && n ≤ 0x20) || n == 0x85 || n == 0xa0 || n == 0x1680 ||
    (0x2000 ≤ n && n ≤ 0x200a) || n == 0x2028 || n == 0x2029 || n == 0x202f || n == 0x205f ||
    n == 0x3000

/-- `str.strip`. -/
def strip (s : PyStr) : PyStr := ((s.dropWhile isSpace).reverse.dropWhile isSpace).reverse

/-- `str.removesuffix`. -/
def removeSuffix (suffix s : PyStr) : PyStr :=
  if suffix <:+ s then s.take (s.length - suffix.length) else s

/-- `sub in s`. -/
def contains (s sub : PyStr) : Bool := decide (sub <:+: s)

/-- `[0-9]`. -/
def isDigit (n : ℕ) : Bool := decide (48 ≤ n) && decide (n ≤ 57)

/-- `[0-9]+`, of the whole string. -/
def isDecimal (s : PyStr) : Bool := !s.isEmpty && s.all isDigit

/-- The number that decimal digits denote. -/
def decimalValue (s : PyStr) : ℕ := s.foldl (fun n c => 10 * n + (c - 48)) 0

/-- `str` of an integer. -/
def ofInt (z : ℤ) : PyStr := ofString (toString z)

/-- `sys.int_info.default_max_str_digits`: `int` refuses a text with more digits. -/
def maxStrDigits : ℕ := 4300

/-- Half of a surrogate pair, which no encoding can write. -/
def isSurrogate (n : ℕ) : Bool := decide (0xd800 ≤ n) && decide (n ≤ 0xdfff)

/-- `text.encode("utf-8")`. -/
def encodeUtf8 (s : PyStr) : Option ByteArray :=
  if s.any isSurrogate then none else some (String.ofList (s.map Char.ofNat)).toUTF8

/-- `str.lower`, of letters of ASCII. -/
def asciiLower (s : PyStr) : PyStr := s.map fun c => if 65 ≤ c ∧ c ≤ 90 then c + 32 else c

theorem isSurrogate_toNat (c : Char) : isSurrogate c.toNat = false := by
  simp only [isSurrogate, Bool.and_eq_false_iff, decide_eq_false_iff_not]
  have hvalid := c.valid
  rcases hvalid with h | h
  · change c.toNat < 0xd800 at h
    omega
  · change 0xdfff < c.toNat ∧ _ at h
    omega

theorem toNat_ofNat {n : ℕ} (h : n.isValidChar) : (Char.ofNat n).toNat = n := by
  rw [Char.ofNat, dif_pos h]
  rfl

theorem encodeUtf8_isSome {s : PyStr} : (encodeUtf8 s).isSome ↔ s.any isSurrogate = false := by
  unfold encodeUtf8
  cases s.any isSurrogate <;> simp

example : strip (ofString " A-1\t") = ofString "A-1" := by decide

section Strip

variable {s : PyStr}

theorem strip_eq_rdropWhile : strip s = (s.dropWhile isSpace).rdropWhile isSpace := rfl

theorem dropWhile_eq_of_prefix {p : ℕ → Bool} {l t : PyStr} (ht : t <+: l)
    (hl : l.dropWhile p = l) : t.dropWhile p = t := by
  cases t with
  | nil => rfl
  | cons c t =>
    obtain ⟨rest, rfl⟩ := ht
    cases hc : p c with
    | false => rw [List.dropWhile_cons_of_neg (by simp [hc])]
    | true =>
      rw [List.cons_append, List.dropWhile_cons_of_pos hc] at hl
      have hlen := congrArg List.length hl
      have hle := List.length_dropWhile_le p (t ++ rest)
      rw [List.length_cons] at hlen
      omega

theorem strip_strip (s : PyStr) : strip (strip s) = strip s := by
  have hhead : (strip s).dropWhile isSpace = strip s :=
    dropWhile_eq_of_prefix (List.rdropWhile_prefix isSpace _) (List.dropWhile_idempotent isSpace s)
  rw [strip_eq_rdropWhile, hhead, strip_eq_rdropWhile, List.rdropWhile_idempotent]

end Strip

end PyText

namespace PyString

/-- The characters for which `str.isspace` holds. -/
def isSpace (c : Char) : Bool := PyText.isSpace c.toNat

/-- `str.strip`. -/
def strip (s : String) : String :=
  String.ofList (((s.toList.dropWhile isSpace).reverse.dropWhile isSpace).reverse)

example : strip " A-1\t" = "A-1" := by decide

theorem ofString_strip (s : String) :
    PyText.ofString (strip s) = PyText.strip (PyText.ofString s) := by
  have hspace : isSpace = PyText.isSpace ∘ Char.toNat := rfl
  rw [PyText.ofString, PyText.ofString, strip, PyText.strip, String.toList_ofList, hspace,
    List.dropWhile_map, ← List.map_reverse, List.dropWhile_map, ← List.map_reverse]

theorem ofString_injective : Function.Injective PyText.ofString := by
  intro s t h
  exact String.toList_inj.mp (List.map_injective_iff.mpr (fun _ _ => Char.toNat_inj.mp) h)

end PyString
