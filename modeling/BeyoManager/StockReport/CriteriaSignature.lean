import BeyoManager.Library.Grouping
import BeyoManager.Library.JsonCanonical
import BeyoManager.StockReport.WebhookBodies

/-! # Signatures of stock criteria

The identity of a row is the hash of its normalised criteria. The values that are understood,
strings that are not blank and lists of strings, are read as sets of tokens; all others stay as
they are. Two criteria have one signature exactly when their normalised forms are the same.
-/

namespace BeyoManager.StockReport.CriteriaSignature

open PyText Sorting Transition CriteriaMatcher WebhookBodies Grouping

/-- What the normalisation needs of `str.lower`. -/
structure LowerLaws (lower : PyStr → PyStr) : Prop where
  lower_lower : ∀ s, lower (lower s) = lower s
  strip_lower : ∀ s, strip s = s → strip (lower s) = lower s
  ne_nil : ∀ s, s ≠ [] → lower s ≠ []
  surrogate : ∀ s, (lower s).any isSurrogate = s.any isSurrogate
  beyond : ∀ s, (lower s).any isBeyond = s.any isBeyond

section Strip

variable {s : PyStr}

theorem any_strip {q : ℕ → Bool} (hq : ∀ c, q c = true → isSpace c = false) :
    (strip s).any q = s.any q := by
  have hdrop : ∀ l : PyStr, (l.dropWhile isSpace).any q = l.any q := by
    intro l
    induction l with
    | nil => rfl
    | cons c l ih =>
      rw [List.dropWhile_cons, List.any_cons]
      split
      · next hspace =>
        have hc : q c = false := by
          by_contra h
          rw [hq c (by simpa using h)] at hspace
          cases hspace
        rw [ih, hc, Bool.false_or]
      · rw [List.any_cons]
  rw [strip, List.any_reverse, hdrop, List.any_reverse, hdrop]

theorem not_isSpace_of_isSurrogate {c : ℕ} (h : isSurrogate c = true) : isSpace c = false := by
  simp only [isSurrogate, Bool.and_eq_true, decide_eq_true_eq] at h
  simp only [isSpace, Bool.or_eq_false_iff, Bool.and_eq_false_iff, decide_eq_false_iff_not,
    beq_eq_false_iff_ne]
  omega

theorem not_isSpace_of_isBeyond {c : ℕ} (h : isBeyond c = true) : isSpace c = false := by
  simp only [isBeyond, decide_eq_true_eq] at h
  simp only [isSpace, Bool.or_eq_false_iff, Bool.and_eq_false_iff, decide_eq_false_iff_not,
    beq_eq_false_iff_ne]
  omega

end Strip

variable (lower : PyStr → PyStr)

def token (s : PyStr) : PyStr := lower (strip s)

def tokens (texts : List PyStr) : List PyStr := (texts.map (token lower)).filter (· ≠ [])

def tokenSet (texts : List PyStr) : List PyStr := sortBy id (tokens lower texts).eraseDups

def stringsOf (items : List Json) : List PyStr :=
  items.filterMap fun
    | .str s => some s
    | _ => none

/-- The strings of a value that is understood: one that is not blank, or a list of strings, not
all of them blank. -/
def understood : Json → Option (List PyStr)
  | .str s => if strip s ≠ [] then some [s] else none
  | .arr items =>
    if items ≠ [] ∧ items.all Json.isStr ∧ (stringsOf items).any fun s => strip s ≠ [] then
      some (stringsOf items)
    else none
  | _ => none

/-- Two values with the same tokens; two that are not understood, with the same JSON value. -/
def AlikeValue (value value' : Json) : Prop :=
  match understood value, understood value' with
  | some texts, some texts' => ∀ t, t ∈ tokens lower texts ↔ t ∈ tokens lower texts'
  | none, none => Json.Same value value'
  | _, _ => False

/-- Criteria with the same keys, in any order, and alike values. -/
def Alike (raw raw' : Fields) : Prop :=
  raw.length = raw'.length ∧ ∀ field ∈ raw, ∃ value', (field.1, value') ∈ raw' ∧
    AlikeValue lower field.2 value'

/-- A dictionary as it is decoded from JSON. -/
structure Decoded (raw : Fields) : Prop where
  wellFormed : (Json.obj raw).WellFormed
  codePoints : (Json.obj raw).texts.any (fun s => s.any isBeyond) = false

/-- No string inside has a lone surrogate. -/
def Writable (raw : Fields) : Prop :=
  (Json.obj raw).texts.any (fun s => s.any isSurrogate) = false

section Normalization

variable {lower} {texts texts' : List PyStr} {value value' : Json} {raw raw' : Fields}

theorem mem_tokens {t : PyStr} :
    t ∈ tokens lower texts ↔ t ≠ [] ∧ ∃ s ∈ texts, token lower s = t := by
  simp [tokens, and_comm]

theorem mem_tokenSet {t : PyStr} : t ∈ tokenSet lower texts ↔ t ∈ tokens lower texts := by
  rw [tokenSet, mem_sortBy, List.mem_eraseDups]

theorem tokenSet_congr (h : ∀ t, t ∈ tokens lower texts ↔ t ∈ tokens lower texts') :
    tokenSet lower texts = tokenSet lower texts' := by
  apply sortBy_eq_of_perm
  · rw [List.perm_ext_iff_of_nodup (nodup_eraseDups _) (nodup_eraseDups _)]
    intro t
    rw [List.mem_eraseDups, List.mem_eraseDups, h]
  · exact fun a _ b _ hab => hab

theorem stringsOf_map_str : stringsOf (texts.map .str) = texts := by
  simp [stringsOf, List.filterMap_map]

theorem token_ne_nil (hlower : LowerLaws lower) {s : PyStr} (h : strip s ≠ []) :
    token lower s ≠ [] := hlower.ne_nil _ h

theorem token_token (hlower : LowerLaws lower) (s : PyStr) :
    token lower (token lower s) = token lower s := by
  rw [token, token, hlower.strip_lower _ (strip_strip s), hlower.lower_lower]

theorem normalizeValue_eq (hlower : LowerLaws lower) (value : Json) :
    normalizeValue lower value = match understood value with
      | some texts => .arr ((tokenSet lower texts).map .str)
      | none => value := by
  cases value with
  | str s =>
    by_cases h : strip s ≠ []
    · have hset : tokenSet lower [s] = [token lower s] := by
        rw [tokenSet, tokens, List.map_singleton,
          List.filter_cons_of_pos (by simpa using token_ne_nil hlower h)]
        rfl
      rw [normalizeValue, if_pos h, understood, if_pos h]
      simp only [hset, List.map_singleton, token]
    · rw [normalizeValue, if_neg h, understood, if_neg h]
  | arr items =>
    rw [understood]
    by_cases h : items ≠ [] ∧ items.all Json.isStr ∧ (stringsOf items).any fun s => strip s ≠ []
    · rw [if_pos h]
      exact if_pos h
    · rw [if_neg h]
      exact if_neg h
  | _ => rfl

theorem understood_nonblank (h : understood value = some texts) : ∃ s ∈ texts, strip s ≠ [] := by
  cases value with
  | str s =>
    rw [understood, Option.ite_none_right_eq_some, Option.some.injEq] at h
    obtain ⟨hs, rfl⟩ := h
    exact ⟨s, List.mem_singleton_self s, hs⟩
  | arr items =>
    rw [understood, Option.ite_none_right_eq_some, Option.some.injEq] at h
    obtain ⟨⟨-, -, hany⟩, rfl⟩ := h
    simpa using hany
  | _ => cases h

theorem understood_tokenSet (hlower : LowerLaws lower) (h : ∃ s ∈ texts, strip s ≠ []) :
    understood (.arr ((tokenSet lower texts).map .str)) = some (tokenSet lower texts) := by
  obtain ⟨s, hs, hblank⟩ := h
  have hmem : token lower s ∈ tokenSet lower texts :=
    mem_tokenSet.mpr (mem_tokens.mpr ⟨token_ne_nil hlower hblank, s, hs, rfl⟩)
  have hstrip : strip (token lower s) ≠ [] := by
    rw [token, hlower.strip_lower _ (strip_strip s)]
    exact token_ne_nil hlower hblank
  rw [understood, stringsOf_map_str, if_pos]
  refine ⟨?_, by simp [Json.isStr], List.any_eq_true.mpr ⟨_, hmem, by simpa using hstrip⟩⟩
  intro hnil
  rw [List.map_eq_nil_iff] at hnil
  rw [hnil] at hmem
  cases hmem

theorem tokenSet_tokenSet (hlower : LowerLaws lower) :
    tokenSet lower (tokenSet lower texts) = tokenSet lower texts := by
  apply tokenSet_congr
  intro t
  rw [mem_tokens]
  constructor
  · rintro ⟨-, s, hs, rfl⟩
    have hs := mem_tokenSet.mp hs
    obtain ⟨-, r, -, rfl⟩ := mem_tokens.mp hs
    rwa [token_token hlower]
  · intro ht
    obtain ⟨hne, r, -, rfl⟩ := mem_tokens.mp ht
    exact ⟨hne, _, mem_tokenSet.mpr ht, token_token hlower r⟩

theorem normalizeValue_idem (hlower : LowerLaws lower) (value : Json) :
    normalizeValue lower (normalizeValue lower value) = normalizeValue lower value := by
  rw [normalizeValue_eq hlower value]
  cases h : understood value with
  | none =>
    simp only
    rw [normalizeValue_eq hlower, h]
  | some texts =>
    simp only
    rw [normalizeValue_eq hlower, understood_tokenSet hlower (understood_nonblank h)]
    simp only [tokenSet_tokenSet hlower]

theorem normalizeStockCriteria_idem (hlower : LowerLaws lower) (raw : Fields) :
    normalizeStockCriteria lower (normalizeStockCriteria lower raw) =
      normalizeStockCriteria lower raw := by
  rw [normalizeStockCriteria, normalizeStockCriteria, List.map_map]
  apply List.map_congr_left
  intro field _
  exact congrArg (Prod.mk field.1) (normalizeValue_idem hlower field.2)

/-- Alike criteria have the same normal form. -/
theorem same_of_alikeValue (hlower : LowerLaws lower) (h : AlikeValue lower value value') :
    Json.Same (normalizeValue lower value) (normalizeValue lower value') := by
  rw [normalizeValue_eq hlower, normalizeValue_eq hlower]
  unfold AlikeValue at h
  cases hv : understood value with
  | none =>
    cases hv' : understood value' with
    | none => simpa only [hv, hv'] using h
    | some texts' => simp only [hv, hv'] at h
  | some texts =>
    cases hv' : understood value' with
    | none => simp only [hv, hv'] at h
    | some texts' =>
      simp only [hv, hv'] at h
      have hset := tokenSet_congr h
      have hwf : (Json.arr ((tokenSet lower texts).map .str)).WellFormed := by
        rw [Json.WellFormed, Json.wellFormedItems_iff]
        rintro _ hitem
        obtain ⟨s, -, rfl⟩ := List.mem_map.mp hitem
        trivial
      simp only [← hset]
      exact (Json.same_iff _ _ hwf hwf).mpr rfl

theorem sameFields_iff_forall {fields fields' : Fields} : Json.SameFields fields fields' ↔
    ∀ field ∈ fields, ∃ value', (field.1, value') ∈ fields' ∧ Json.Same field.2 value' := by
  induction fields with
  | nil => simp [Json.SameFields]
  | cons field fields ih => rw [Json.SameFields, ih, List.forall_mem_cons]

theorem same_of_alike (hlower : LowerLaws lower) (h : Alike lower raw raw') :
    Json.Same (.obj (normalizeStockCriteria lower raw))
      (.obj (normalizeStockCriteria lower raw')) := by
  rw [Json.Same, sameFields_iff_forall]
  refine ⟨by simp [normalizeStockCriteria, h.1], ?_⟩
  intro field hfield
  obtain ⟨⟨key, value⟩, hmem, rfl⟩ := List.mem_map.mp hfield
  obtain ⟨value', hmem', halike⟩ := h.2 _ hmem
  exact ⟨_, List.mem_map.mpr ⟨_, hmem', rfl⟩, same_of_alikeValue hlower halike⟩

end Normalization

section Changes

variable {lower} {texts texts' : List PyStr}

theorem understood_texts (h : ∃ s ∈ texts, strip s ≠ []) :
    understood (.arr (texts.map .str)) = some texts := by
  obtain ⟨s, hs, hblank⟩ := h
  rw [understood, stringsOf_map_str, if_pos]
  refine ⟨?_, by simp [Json.isStr], List.any_eq_true.mpr ⟨s, hs, by simpa using hblank⟩⟩
  intro hnil
  rw [List.map_eq_nil_iff] at hnil
  rw [hnil] at hs
  cases hs

theorem alikeValue_single {s : PyStr} (h : strip s ≠ []) :
    AlikeValue lower (.str s) (.arr [.str s]) := by
  rw [AlikeValue, show understood (.arr [.str s]) = some [s] from
    @understood_texts [s] ⟨s, List.mem_singleton_self s, h⟩, understood, if_pos h]
  exact fun t => Iff.rfl

theorem alikeValue_texts (h : ∃ s ∈ texts, strip s ≠ []) (h' : ∃ s ∈ texts', strip s ≠ [])
    (hto : ∀ s ∈ texts, ∃ s' ∈ texts', token lower s' = token lower s)
    (hfrom : ∀ s ∈ texts', ∃ s' ∈ texts, token lower s' = token lower s) :
    AlikeValue lower (.arr (texts.map .str)) (.arr (texts'.map .str)) := by
  rw [AlikeValue, understood_texts h, understood_texts h']
  intro t
  rw [mem_tokens, mem_tokens]
  constructor
  · rintro ⟨hne, s, hs, rfl⟩
    exact ⟨hne, hto s hs⟩
  · rintro ⟨hne, s, hs, rfl⟩
    exact ⟨hne, hfrom s hs⟩

theorem alikeValue_of_mem_iff (h : ∃ s ∈ texts, strip s ≠ [])
    (hmem : ∀ s, s ∈ texts ↔ s ∈ texts') :
    AlikeValue lower (.arr (texts.map .str)) (.arr (texts'.map .str)) := by
  obtain ⟨s, hs, hblank⟩ := h
  exact alikeValue_texts ⟨s, hs, hblank⟩ ⟨s, (hmem s).mp hs, hblank⟩
    (fun s hs => ⟨s, (hmem s).mp hs, rfl⟩) fun s hs => ⟨s, (hmem s).mpr hs, rfl⟩

theorem alikeValue_respelled {f : PyStr → PyStr} (h : ∃ s ∈ texts, strip s ≠ [])
    (hblank : ∀ s ∈ texts, strip s ≠ [] → strip (f s) ≠ [])
    (hf : ∀ s ∈ texts, token lower (f s) = token lower s) :
    AlikeValue lower (.arr (texts.map .str)) (.arr ((texts.map f).map .str)) := by
  obtain ⟨s, hs, hstrip⟩ := h
  apply alikeValue_texts ⟨s, hs, hstrip⟩ ⟨f s, List.mem_map_of_mem hs, hblank s hs hstrip⟩
  · intro s hs
    exact ⟨f s, List.mem_map_of_mem hs, hf s hs⟩
  · intro s' hs'
    obtain ⟨s, hs, rfl⟩ := List.mem_map.mp hs'
    exact ⟨s, hs, (hf s hs).symm⟩

end Changes

section Strings

variable {lower} {q : ℕ → Bool} (hq : ∀ c, q c = true → isSpace c = false)
  (hlower : ∀ s, (lower s).any q = s.any q)

include hq hlower

theorem any_token (s : PyStr) : (token lower s).any q = s.any q := by
  rw [token, hlower, any_strip hq]

theorem any_tokenSet (texts : List PyStr) :
    (tokenSet lower texts).any (fun t => t.any q) = texts.any fun s => s.any q := by
  rw [Bool.eq_iff_iff, List.any_eq_true, List.any_eq_true]
  constructor
  · rintro ⟨t, ht, hany⟩
    obtain ⟨-, s, hs, rfl⟩ := mem_tokens.mp (mem_tokenSet.mp ht)
    exact ⟨s, hs, by rwa [any_token hq hlower] at hany⟩
  · rintro ⟨s, hs, hany⟩
    have htoken := (any_token hq hlower s).trans hany
    refine ⟨token lower s, mem_tokenSet.mpr (mem_tokens.mpr ⟨?_, s, hs, rfl⟩), htoken⟩
    rintro hnil
    rw [hnil] at htoken
    cases htoken

end Strings

section Texts

variable {q : ℕ → Bool}

theorem textsItems_map_str (texts : List PyStr) : Json.textsItems (texts.map .str) = texts := by
  induction texts with
  | nil => rfl
  | cons s texts ih => rw [List.map_cons, Json.textsItems, ih, Json.texts, List.singleton_append]

theorem map_str_stringsOf {items : List Json} (h : items.all Json.isStr = true) :
    (stringsOf items).map .str = items := by
  induction items with
  | nil => rfl
  | cons item items ih =>
    rw [List.all_cons, Bool.and_eq_true] at h
    cases item with
    | str s =>
      exact congrArg (List.cons (Json.str s)) (ih h.2)
    | _ => cases h.1

theorem texts_of_understood {value : Json} {texts : List PyStr}
    (h : understood value = some texts) : value.texts = texts := by
  cases value with
  | str s =>
    rw [understood, Option.ite_none_right_eq_some, Option.some.injEq] at h
    exact h.2
  | arr items =>
    rw [understood, Option.ite_none_right_eq_some, Option.some.injEq] at h
    obtain ⟨⟨-, hall, -⟩, rfl⟩ := h
    rw [Json.texts]
    conv_lhs => rw [← map_str_stringsOf hall]
    exact textsItems_map_str _
  | _ => cases h

theorem any_texts_normalize {lower : PyStr → PyStr} (hlaws : LowerLaws lower)
    (hq : ∀ c, q c = true → isSpace c = false) (hlower : ∀ s, (lower s).any q = s.any q)
    (raw : Fields) : (Json.obj (normalizeStockCriteria lower raw)).texts.any (fun s => s.any q) =
      (Json.obj raw).texts.any fun s => s.any q := by
  rw [Json.texts, Json.texts, Json.textsFields_eq_flatMap, Json.textsFields_eq_flatMap,
    List.any_flatMap, List.any_flatMap, normalizeStockCriteria, List.any_map]
  congr 1
  funext ⟨key, value⟩
  simp only [Function.comp_apply, List.any_cons]
  rw [normalizeValue_eq hlaws]
  cases h : understood value with
  | none => rfl
  | some texts =>
    simp only
    rw [Json.texts, textsItems_map_str, any_tokenSet hq hlower, texts_of_understood h]

end Texts

section Signature

variable {py : Python} {raw raw' : Fields}

/-- The bytes that are hashed. -/
def hashed (py : Python) (raw : Fields) : Option ByteArray :=
  encodeUtf8 (Json.obj (normalizeStockCriteria py.lower raw)).sortKeys.dumps

theorem computeStockCriteriaSignature_eq : computeStockCriteriaSignature py raw =
    match hashed py raw with
    | some data => .ok (py.sha256 data)
    | none => .error .unicodeEncodeError := rfl

theorem hashed_isSome_iff (hlower : LowerLaws py.lower) :
    (hashed py raw).isSome ↔ Writable raw := by
  rw [hashed, encodeUtf8_isSome, Json.any_isSurrogate_dumps, Json.any_texts_sortKeys,
    any_texts_normalize hlower (fun _ => not_isSpace_of_isSurrogate) hlower.surrogate, Writable]

theorem wellFormed_normalize (hlower : LowerLaws py.lower) (h : (Json.obj raw).WellFormed) :
    (Json.obj (normalizeStockCriteria py.lower raw)).WellFormed := by
  refine ⟨?_, Json.wellFormedFields_iff.mpr ?_⟩
  · rw [normalizeStockCriteria, List.map_map]
    exact h.1
  · intro field hfield
    obtain ⟨⟨key, value⟩, hmem, rfl⟩ := List.mem_map.mp hfield
    have hvalue := Json.wellFormedFields_iff.mp h.2 _ hmem
    simp only [normalizeValue_eq hlower]
    cases understood value with
    | none => exact hvalue
    | some texts =>
      simp only [Json.WellFormed, Json.wellFormedItems_iff]
      rintro _ hitem
      obtain ⟨s, -, rfl⟩ := List.mem_map.mp hitem
      trivial

theorem canonical_isBeyond (hlower : LowerLaws py.lower) (h : Decoded raw) :
    (Json.obj (normalizeStockCriteria py.lower raw)).sortKeys.dumps.any isBeyond = false := by
  rw [Json.any_dumps isBeyond_toNat, Json.any_texts_sortKeys,
    any_texts_normalize hlower (fun _ => not_isSpace_of_isBeyond) hlower.beyond, h.codePoints]

theorem hashed_eq_of_same (hlower : LowerLaws py.lower) (h : Decoded raw) (h' : Decoded raw')
    (hsame : Json.Same (.obj (normalizeStockCriteria py.lower raw))
      (.obj (normalizeStockCriteria py.lower raw'))) : hashed py raw = hashed py raw' := by
  rw [hashed, hashed, (Json.canonical_eq_iff (wellFormed_normalize hlower h.wellFormed)
    (wellFormed_normalize hlower h'.wellFormed)).mpr hsame]

theorem same_of_hashed_eq (hlower : LowerLaws py.lower) (h : Decoded raw) (h' : Decoded raw')
    {data : ByteArray} (hdata : hashed py raw = some data) (hdata' : hashed py raw' = some data) :
    Json.Same (.obj (normalizeStockCriteria py.lower raw))
      (.obj (normalizeStockCriteria py.lower raw')) :=
  (Json.canonical_eq_iff (wellFormed_normalize hlower h.wellFormed)
    (wellFormed_normalize hlower h'.wellFormed)).mp
      (encodeUtf8_inj (canonical_isBeyond hlower h) (canonical_isBeyond hlower h') hdata hdata')

/-- Normalising is idempotent; criteria without lone surrogates have a signature, one for the
same normal forms; and alike criteria have one outcome. -/
theorem criteria_signature_identity (py : Python) (hlower : LowerLaws py.lower)
    (raw raw' : Fields) (h : Decoded raw) (h' : Decoded raw')
    (hsha : ∀ data ∈ hashed py raw, ∀ data' ∈ hashed py raw',
      py.sha256 data = py.sha256 data' → data = data') :
    normalizeStockCriteria py.lower (normalizeStockCriteria py.lower raw) =
      normalizeStockCriteria py.lower raw ∧
    ((∃ signature, computeStockCriteriaSignature py raw = .ok signature) ↔ Writable raw) ∧
    (Writable raw → Writable raw' →
      (computeStockCriteriaSignature py raw = computeStockCriteriaSignature py raw' ↔
        Json.Same (.obj (normalizeStockCriteria py.lower raw))
          (.obj (normalizeStockCriteria py.lower raw')))) ∧
    (Alike py.lower raw raw' →
      computeStockCriteriaSignature py raw = computeStockCriteriaSignature py raw') := by
  refine ⟨normalizeStockCriteria_idem hlower raw, ?_, ?_, ?_⟩
  · have hwritable : (hashed py raw).isSome ↔ Writable raw := hashed_isSome_iff hlower
    rw [← hwritable, computeStockCriteriaSignature_eq]
    cases hashed py raw <;> simp
  · intro hw hw'
    obtain ⟨data, hdata⟩ := Option.isSome_iff_exists.mp ((hashed_isSome_iff hlower).mpr hw)
    obtain ⟨data', hdata'⟩ := Option.isSome_iff_exists.mp ((hashed_isSome_iff hlower).mpr hw')
    constructor
    · intro heq
      rw [computeStockCriteriaSignature_eq, computeStockCriteriaSignature_eq, hdata, hdata',
        Except.ok.injEq] at heq
      obtain rfl := hsha data hdata data' hdata' heq
      exact same_of_hashed_eq hlower h h' hdata hdata'
    · intro hsame
      rw [computeStockCriteriaSignature_eq, computeStockCriteriaSignature_eq,
        hashed_eq_of_same hlower h h' hsame]
  · intro halike
    rw [computeStockCriteriaSignature_eq, computeStockCriteriaSignature_eq,
      hashed_eq_of_same hlower h h' (same_of_alike hlower halike)]

/-- Letters of ASCII meet the laws. -/
theorem lowerLaws_asciiLower : LowerLaws PyText.asciiLower := by
  have hletter : ∀ c : ℕ, ∀ q : ℕ → Bool, (∀ c ≤ 90, 65 ≤ c → q (c + 32) = q c) →
      q (if 65 ≤ c ∧ c ≤ 90 then c + 32 else c) = q c := by
    intro c q hq
    split_ifs with h
    · exact hq c h.2 h.1
    · rfl
  have hspace : ∀ c ≤ 90, 65 ≤ c → isSpace (c + 32) = isSpace c := by decide
  have hdrop : ∀ s : PyStr, (PyText.asciiLower s).dropWhile isSpace =
      PyText.asciiLower (s.dropWhile isSpace) := by
    intro s
    rw [PyText.asciiLower, List.dropWhile_map]
    congr 2
    funext c
    exact hletter c isSpace hspace
  have hreverse : ∀ s : PyStr, (PyText.asciiLower s).reverse = PyText.asciiLower s.reverse :=
    fun s => (List.map_reverse ..).symm
  constructor
  · intro s
    rw [PyText.asciiLower, PyText.asciiLower, List.map_map]
    apply List.map_congr_left
    intro c _
    simp only [Function.comp_apply]
    split_ifs <;> omega
  · intro s h
    rw [strip, hdrop, hreverse, hdrop, hreverse, ← strip, h]
  · intro s h
    rwa [PyText.asciiLower, Ne, List.map_eq_nil_iff]
  · intro s
    rw [PyText.asciiLower, List.any_map]
    congr 1
    funext c
    exact hletter c isSurrogate (by decide)
  · intro s
    rw [PyText.asciiLower, List.any_map]
    congr 1
    funext c
    exact hletter c isBeyond (by decide)

def digests : List (String × String) :=
  [("\x7b\"legs\":4,\"wood_type\":[\"oak\",\"teak\"]\x7d",
      "c868deea90f439d0459f56c9949003375cabc767c089b40f801921f289d5828e"),
    ("\x7b\"sizes\":[1,2]\x7d",
      "c2295820fa4125aabcfc94e3759d9efb48c1315791342b8a01ddfdd675ecfe87"),
    ("\x7b\"sizes\":[2,1]\x7d",
      "f31699fcc5d730023e5d4e36001566429581f4d71429f1e9f04bb0914ff1f8aa"),
    ("\x7b\"wood_type\":\"  \"\x7d",
      "5ebae4698f67c98e0993e404f330b24e0ed7a199960407228ee28dff35256748"),
    ("\x7b\"wood_type\":[\"  \"]\x7d",
      "7bfa4772d045da7f8aedee2a8c428f01554306bbaec61e764ef1a302ee54569d")]

def knownPython : Python where
  lower := PyText.asciiLower
  reprFloat := id
  sha256 data := ((digests.find? fun e => e.1.toUTF8.data = data.data).map Prod.snd).getD ""
  maxDepth := 1000

theorem criteria_signature_identity_oak :
    let raw : Fields := [(ofString "wood_type",
      .arr [.str (ofString " Teak"), .str (ofString "oak")]), (ofString "legs", .int 4)]
    let raw' : Fields := [(ofString "legs", .int 4), (ofString "wood_type",
      .arr [.str (ofString "OAK"), .str (ofString "teak "), .str (ofString "oak")])]
    normalizeStockCriteria PyText.asciiLower (normalizeStockCriteria PyText.asciiLower raw) =
      normalizeStockCriteria PyText.asciiLower raw ∧
    ((∃ signature, computeStockCriteriaSignature knownPython raw = .ok signature) ↔
      Writable raw) ∧
    (Writable raw → Writable raw' →
      (computeStockCriteriaSignature knownPython raw =
          computeStockCriteriaSignature knownPython raw' ↔
        Json.Same (.obj (normalizeStockCriteria PyText.asciiLower raw))
          (.obj (normalizeStockCriteria PyText.asciiLower raw')))) ∧
    (Alike PyText.asciiLower raw raw' → computeStockCriteriaSignature knownPython raw =
      computeStockCriteriaSignature knownPython raw') := by
  intro raw raw'
  refine criteria_signature_identity knownPython lowerLaws_asciiLower raw raw' ?_ ?_ ?_
  · refine ⟨⟨by decide, ?_⟩, by decide⟩
    simp [raw, Json.WellFormedFields, Json.WellFormed, Json.WellFormedItems]
  · refine ⟨⟨by decide, ?_⟩, by decide⟩
    simp [raw', Json.WellFormedFields, Json.WellFormed, Json.WellFormedItems]
  · have hsame : hashed knownPython raw = hashed knownPython raw' := by decide +kernel
    intro data hdata data' hdata' _
    rw [← hsame] at hdata'
    exact Option.mem_unique hdata hdata'

/-- A blank string is no list of it, and the order of a list of numbers counts: neither value is
understood. -/
theorem blank_and_numbers_kept :
    computeStockCriteriaSignature knownPython [(ofString "wood_type", .str (ofString "  "))] ≠
      computeStockCriteriaSignature knownPython
        [(ofString "wood_type", .arr [.str (ofString "  ")])] ∧
    computeStockCriteriaSignature knownPython [(ofString "sizes", .arr [.int 1, .int 2])] ≠
      computeStockCriteriaSignature knownPython [(ofString "sizes", .arr [.int 2, .int 1])] := by
  decide +kernel

end Signature

end BeyoManager.StockReport.CriteriaSignature
