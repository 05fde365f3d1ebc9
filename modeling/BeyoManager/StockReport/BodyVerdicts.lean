import BeyoManager.StockReport.WebhookBodies
import Mathlib.Data.List.Induction

/-! # When a body is accepted

The loop of the parsers names every entry that has a defect, and every entry that shares its
identity with another one. So a body that is refused says why, entry by entry. Three things
escape: what Python's JSON reader cannot hold, strings that no encoding can write, and the
constants that this reader takes for numbers.
-/

namespace BeyoManager.StockReport.WebhookBodies

open PyText Transition CriteriaMatcher

variable {Checked Signature Entry : Type}

section Acceptance

variable (py : Python) (rules : EntryRules Checked Signature Entry)

/-- The bytes are the UTF-8 of a text that is read as the payload; `constant` says that it is
JSON only but for NaN or Infinity. -/
def Loads (raw : ByteArray) (payload : Json) (constant : Bool) : Prop :=
  ∃ text, String.fromUTF8? raw = some text ∧
    JsonText.read py.reprFloat .unlimited (ofString text) = .ok (payload, constant)

def ReadsAs (item : Json) (checked : Checked) : Prop :=
  ∃ fields, item = .obj fields ∧ rules.readFields fields = .ok checked

/-- The element satisfies the field rules. -/
def WellFormed (item : Json) : Prop := ∃ checked, ReadsAs rules item checked

def HasIdentity (item : Json) (identity : Identity) : Prop :=
  ∃ checked signature, ReadsAs rules item checked ∧ rules.sign checked = .ok signature ∧
    rules.identity checked signature = some identity

def SameIdentity (item other : Json) : Prop :=
  ∃ identity, HasIdentity rules item identity ∧ HasIdentity rules other identity

def Distinct (payload : List Json) : Prop := payload.Pairwise fun a b => ¬ SameIdentity rules a b

structure Acceptable (payload : List Json) : Prop where
  nonempty : payload ≠ []
  wellFormed : ∀ item ∈ payload, WellFormed rules item
  distinct : Distinct rules payload

/-- The element breaks a field rule, or shares its identity with another one. -/
def Offending (payload : List Json) (i : ℕ) : Prop :=
  ∃ item, payload[i]? = some item ∧ (¬ WellFormed rules item ∨
    ∃ j other, j ≠ i ∧ payload[j]? = some other ∧ SameIdentity rules item other)

def Names (message : String) (i : ℕ) : Prop :=
  ∃ before after text, message = before ++ text ++ after ∧
    ((∃ defect, text = entryText i defect) ∨
      ∃ j, text = duplicateText i j ∨ text = duplicateText j i)

/-- The result of a parser: it accepts the acceptable bodies, refuses the others and names what
offends. -/
def Meets (result : Except BodyError (List Entry)) (raw : ByteArray) : Prop :=
  (∃ entries, result = .ok entries ∧
    ∃ payload, Loads py raw (.arr payload) false ∧ Acceptable rules payload) ∨
  ∃ message, result = .error (.validation message) ∧
    (¬ ∃ payload, Loads py raw (.arr payload) false ∧ Acceptable rules payload) ∧
      ∀ payload constant, Loads py raw (.arr payload) constant →
        ∀ i, Offending rules payload i → Names message i

/-- The reader passes neither its limit on nesting nor that on the digits of an integer. -/
def WithinLimits (raw : ByteArray) : Prop :=
  ∀ text, String.fromUTF8? raw = some text → ∀ e,
    JsonText.read py.reprFloat py.limits (ofString text) = .error e → e = .decodeError

/-- Nothing that escapes the parser is in the body. -/
structure Unharmed (raw : ByteArray) : Prop where
  within : WithinLimits py raw
  /-- No element that satisfies the field rules has a lone surrogate in what is hashed. -/
  hashable : ∀ payload constant, Loads py raw (.arr payload) constant →
    ∀ item ∈ payload, ∀ checked, ReadsAs rules item checked → rules.Hashable checked
  /-- No constant is in an otherwise acceptable body. -/
  constants : ∀ payload, Loads py raw (.arr payload) true → ¬ Acceptable rules payload

end Acceptance

section Loop

variable {rules : EntryRules Checked Signature Entry} {item : Json} {state : ParseState Entry}

theorem ReadsAs.unique {checked checked' : Checked} (h : ReadsAs rules item checked)
    (h' : ReadsAs rules item checked') : checked = checked' := by
  obtain ⟨fields, rfl, hread⟩ := h
  obtain ⟨fields', hfields, hread'⟩ := h'
  obtain rfl := Json.obj.inj hfields
  exact Except.ok.inj (hread.symm.trans hread')

theorem HasIdentity.unique {identity identity' : Identity} (h : HasIdentity rules item identity)
    (h' : HasIdentity rules item identity') : identity = identity' := by
  obtain ⟨checked, signature, hread, hsign, hidentity⟩ := h
  obtain ⟨checked', signature', hread', hsign', hidentity'⟩ := h'
  obtain rfl := hread.unique hread'
  obtain rfl := Except.ok.inj (hsign.symm.trans hsign')
  exact Option.some.inj (hidentity.symm.trans hidentity')

theorem HasIdentity.wellFormed {identity : Identity} (h : HasIdentity rules item identity) :
    WellFormed rules item := by
  obtain ⟨checked, -, hread, -⟩ := h
  exact ⟨checked, hread⟩

theorem parseItem_malformed (state : ParseState Entry) (h : ¬ WellFormed rules item) (i : ℕ) :
    ∃ defect defects, parseItem rules state (item, i) =
      .ok { state with defects := state.defects ++ entryText i defect :: defects } := by
  cases item with
  | obj fields =>
    cases hread : rules.readFields fields with
    | ok checked => exact absurd ⟨checked, fields, rfl, hread⟩ h
    | error defects =>
      cases hdefects : defects with
      | nil => exact absurd hdefects (rules.defects_ne_nil _ _ hread)
      | cons defect rest =>
        refine ⟨defect, rest.map (entryText i), ?_⟩
        rw [parseItem, hread, hdefects]
        rfl
  | _ => exact ⟨"must be an object", [], rfl⟩

theorem parseItem_wellFormed {checked : Checked} {signature : Signature}
    (hread : ReadsAs rules item checked) (hsign : rules.sign checked = .ok signature) (i : ℕ) :
    parseItem rules state (item, i) =
      .ok { state.register i (rules.identity checked signature) with
        entries := (state.register i (rules.identity checked signature)).entries ++
          [rules.build i checked signature] } := by
  obtain ⟨fields, rfl, hread⟩ := hread
  rw [parseItem, hread]
  simp only [hsign]
  rfl

theorem parseItem_unhashable {checked : Checked} (hread : ReadsAs rules item checked)
    (h : ¬ rules.Hashable checked) (i : ℕ) :
    parseItem rules state (item, i) = .error .unicodeEncodeError := by
  obtain ⟨fields, rfl, hread⟩ := hread
  rw [parseItem, hread]
  simp only [rules.sign_error _ h]
  rfl

/-- What the loop knows of the elements it has passed. -/
structure Tracks (rules : EntryRules Checked Signature Entry) (payload : List Json)
    (state : ParseState Entry) : Prop where
  found : ∀ identity first, state.firstIndex identity = some first →
    ∃ item, payload[first]? = some item ∧ HasIdentity rules item identity
  seen : ∀ i item identity, payload[i]? = some item → HasIdentity rules item identity →
    ∃ first, state.firstIndex identity = some first ∧
      (i = first ∨ duplicateText first i ∈ state.defects)
  malformed : ∀ i item, payload[i]? = some item → ¬ WellFormed rules item →
    ∃ defect, entryText i defect ∈ state.defects
  clean : (∀ item ∈ payload, WellFormed rules item) → Distinct rules payload → state.defects = []

theorem getElem?_concat_eq_some {α : Type} {l : List α} {a x : α} {i : ℕ} :
    (l ++ [a])[i]? = some x ↔ l[i]? = some x ∨ i = l.length ∧ x = a := by
  rcases lt_trichotomy i l.length with hlt | rfl | hgt
  · rw [List.getElem?_append_left hlt]
    simp [hlt.ne]
  · simp [eq_comm]
  · rw [List.getElem?_eq_none hgt.le, List.getElem?_eq_none]
    · simp [hgt.ne']
    · rw [List.length_append, List.length_singleton]
      omega

variable {payload : List Json}

theorem tracks_start : Tracks rules [] ParseState.start where
  found _ _ h := by simp [ParseState.firstIndex, ParseState.start] at h
  seen _ _ _ h := by simp at h
  malformed _ _ h := by simp at h
  clean _ _ := rfl

/-- The loop passes an element that breaks a field rule. -/
theorem Tracks.append_malformed (h : Tracks rules payload state) (hitem : ¬ WellFormed rules item)
    (defect : String) (defects : List String) :
    Tracks rules (payload ++ [item]) { state with
      defects := state.defects ++ entryText payload.length defect :: defects } := by
  constructor
  · intro identity first hfirst
    obtain ⟨other, hother, hidentity⟩ := h.found identity first hfirst
    exact ⟨other, getElem?_concat_eq_some.mpr (.inl hother), hidentity⟩
  · intro i other identity hother hidentity
    rcases getElem?_concat_eq_some.mp hother with hother | ⟨-, rfl⟩
    · obtain ⟨first, hfirst, hi⟩ := h.seen i other identity hother hidentity
      exact ⟨first, hfirst, hi.imp_right (List.mem_append_left _)⟩
    · exact absurd hidentity.wellFormed hitem
  · intro i other hother hbad
    rcases getElem?_concat_eq_some.mp hother with hother | ⟨rfl, rfl⟩
    · obtain ⟨text, htext⟩ := h.malformed i other hother hbad
      exact ⟨text, List.mem_append_left _ htext⟩
    · exact ⟨defect, by simp⟩
  · intro hall
    exact absurd (hall item (by simp)) hitem

theorem Tracks.append_unidentified (h : Tracks rules payload state)
    (hitem : WellFormed rules item) (hnone : ∀ identity, ¬ HasIdentity rules item identity) :
    Tracks rules (payload ++ [item]) state := by
  constructor
  · intro identity first hfirst
    obtain ⟨other, hother, hidentity⟩ := h.found identity first hfirst
    exact ⟨other, getElem?_concat_eq_some.mpr (.inl hother), hidentity⟩
  · intro i other identity hother hidentity
    rcases getElem?_concat_eq_some.mp hother with hother | ⟨-, rfl⟩
    · exact h.seen i other identity hother hidentity
    · exact absurd hidentity (hnone identity)
  · intro i other hother hbad
    rcases getElem?_concat_eq_some.mp hother with hother | ⟨-, rfl⟩
    · exact h.malformed i other hother hbad
    · exact absurd hitem hbad
  · intro hall hdistinct
    exact h.clean (fun other hother => hall other (List.mem_append_left _ hother))
      (List.pairwise_append.mp hdistinct).1

theorem firstIndex_concat (identity other : Identity) (index : ℕ) (defects : List String)
    (entries : List Entry) :
    ParseState.firstIndex ⟨defects, entries, state.firstIndexByIdentity ++ [(identity, index)]⟩
      other = (state.firstIndex other).or (if identity = other then some index else none) := by
  unfold ParseState.firstIndex
  rw [List.find?_append]
  by_cases h : identity = other
  · cases state.firstIndexByIdentity.find? fun e => e.1 = other <;> simp [h]
  · cases state.firstIndexByIdentity.find? fun e => e.1 = other <;> simp [h]

/-- The loop passes an element with the identity of an earlier one. -/
theorem Tracks.append_duplicate (h : Tracks rules payload state) {identity : Identity}
    (hitem : HasIdentity rules item identity) {first : ℕ}
    (hfirst : state.firstIndex identity = some first) :
    Tracks rules (payload ++ [item]) { state with
      defects := state.defects ++ [duplicateText first payload.length] } := by
  obtain ⟨earlier, hearlier, hidentity⟩ := h.found identity first hfirst
  constructor
  · intro identity' first' hfirst'
    obtain ⟨other, hother, hidentity'⟩ := h.found identity' first' hfirst'
    exact ⟨other, getElem?_concat_eq_some.mpr (.inl hother), hidentity'⟩
  · intro i other identity' hother hidentity'
    rcases getElem?_concat_eq_some.mp hother with hother | ⟨rfl, rfl⟩
    · obtain ⟨first', hfirst', hi⟩ := h.seen i other identity' hother hidentity'
      exact ⟨first', hfirst', hi.imp_right (List.mem_append_left _)⟩
    · obtain rfl := hitem.unique hidentity'
      exact ⟨first, hfirst, .inr (by simp)⟩
  · intro i other hother hbad
    rcases getElem?_concat_eq_some.mp hother with hother | ⟨-, rfl⟩
    · obtain ⟨text, htext⟩ := h.malformed i other hother hbad
      exact ⟨text, List.mem_append_left _ htext⟩
    · exact absurd hitem.wellFormed hbad
  · intro _ hdistinct
    have hmem : earlier ∈ payload := List.mem_of_getElem? hearlier
    exact absurd ⟨identity, hidentity, hitem⟩
      ((List.pairwise_append.mp hdistinct).2.2 earlier hmem item (by simp))

/-- The loop passes the first element with its identity. -/
theorem Tracks.append_first (h : Tracks rules payload state) {identity : Identity}
    (hitem : HasIdentity rules item identity) (hfirst : state.firstIndex identity = none) :
    Tracks rules (payload ++ [item]) { state with
      firstIndexByIdentity := state.firstIndexByIdentity ++ [(identity, payload.length)] } := by
  constructor
  · intro identity' first' hfirst'
    rw [firstIndex_concat] at hfirst'
    rcases Option.or_eq_some_iff.mp hfirst' with hold | ⟨-, hnew⟩
    · obtain ⟨other, hother, hidentity'⟩ := h.found identity' first' hold
      exact ⟨other, getElem?_concat_eq_some.mpr (.inl hother), hidentity'⟩
    · obtain ⟨rfl, rfl⟩ : identity = identity' ∧ payload.length = first' := by simpa using hnew
      exact ⟨item, getElem?_concat_eq_some.mpr (.inr ⟨rfl, rfl⟩), hitem⟩
  · intro i other identity' hother hidentity'
    simp only [firstIndex_concat]
    rcases getElem?_concat_eq_some.mp hother with hother | ⟨rfl, rfl⟩
    · obtain ⟨first', hfirst', hi⟩ := h.seen i other identity' hother hidentity'
      exact ⟨first', by rw [hfirst', Option.some_or], hi⟩
    · obtain rfl := hitem.unique hidentity'
      exact ⟨payload.length, by rw [hfirst, Option.none_or, if_pos rfl], .inl rfl⟩
  · intro i other hother hbad
    rcases getElem?_concat_eq_some.mp hother with hother | ⟨-, rfl⟩
    · exact h.malformed i other hother hbad
    · exact absurd hitem.wellFormed hbad
  · intro hall hdistinct
    exact h.clean (fun other hother => hall other (List.mem_append_left _ hother))
      (List.pairwise_append.mp hdistinct).1

theorem Tracks.append_identified (h : Tracks rules payload state) {identity : Identity}
    (hitem : HasIdentity rules item identity) :
    Tracks rules (payload ++ [item]) (state.register payload.length (some identity)) := by
  rw [ParseState.register]
  cases hfirst : state.firstIndex identity with
  | some first => exact h.append_duplicate hitem hfirst
  | none => exact h.append_first hitem hfirst

/-- One turn of the loop. -/
theorem Tracks.parseItem (h : Tracks rules payload state)
    (hhash : ∀ checked, ReadsAs rules item checked → rules.Hashable checked) :
    ∃ state', parseItem rules state (item, payload.length) = .ok state' ∧
      Tracks rules (payload ++ [item]) state' := by
  by_cases hitem : WellFormed rules item
  · obtain ⟨checked, hread⟩ := hitem
    obtain ⟨signature, hsign⟩ := rules.sign_ok checked (hhash checked hread)
    refine ⟨_, parseItem_wellFormed hread hsign _, ?_⟩
    cases hidentity : rules.identity checked signature with
    | none =>
      have hnone : ∀ identity, ¬ HasIdentity rules item identity := by
        rintro identity ⟨checked', signature', hread', hsign', hidentity'⟩
        obtain rfl := hread.unique hread'
        obtain rfl := Except.ok.inj (hsign.symm.trans hsign')
        simp [hidentity] at hidentity'
      obtain ⟨hfound, hseen, hbad, hclean⟩ := h.append_unidentified ⟨checked, hread⟩ hnone
      exact ⟨hfound, hseen, hbad, hclean⟩
    | some identity =>
      obtain ⟨hfound, hseen, hbad, hclean⟩ :=
        h.append_identified ⟨checked, signature, hread, hsign, hidentity⟩
      exact ⟨hfound, hseen, hbad, hclean⟩
  · obtain ⟨defect, defects, hparse⟩ := parseItem_malformed state hitem payload.length
    exact ⟨_, hparse, h.append_malformed hitem defect defects⟩

theorem foldlM_parseItem_concat (payload : List Json) (item : Json) :
    (payload ++ [item]).zipIdx.foldlM (parseItem rules) .start =
      payload.zipIdx.foldlM (parseItem rules) .start >>= fun state =>
        parseItem rules state (item, payload.length) := by
  rw [List.zipIdx_append, List.foldlM_append]
  simp

theorem parseItems_tracks (payload : List Json)
    (h : ∀ item ∈ payload, ∀ checked, ReadsAs rules item checked → rules.Hashable checked) :
    ∃ state, payload.zipIdx.foldlM (parseItem rules) .start = .ok state ∧
      Tracks rules payload state := by
  induction payload using List.reverseRecOn with
  | nil => exact ⟨.start, rfl, tracks_start⟩
  | append_singleton payload item ih =>
    obtain ⟨state, hstate, htracks⟩ :=
      ih fun other hother => h other (List.mem_append_left _ hother)
    obtain ⟨state', hparse, htracks'⟩ := htracks.parseItem (h item (by simp))
    refine ⟨state', ?_, htracks'⟩
    rw [foldlM_parseItem_concat, hstate]
    exact hparse

/-- The loop over elements of which one cannot be hashed. -/
theorem parseItems_unhashable (payload : List Json)
    (h : ∃ item ∈ payload, ∃ checked, ReadsAs rules item checked ∧ ¬ rules.Hashable checked) :
    payload.zipIdx.foldlM (parseItem rules) .start = .error .unicodeEncodeError := by
  induction payload using List.reverseRecOn with
  | nil =>
    obtain ⟨item, hitem, -⟩ := h
    simp at hitem
  | append_singleton payload item ih =>
    rw [foldlM_parseItem_concat]
    by_cases hearlier : ∃ item ∈ payload, ∃ checked,
        ReadsAs rules item checked ∧ ¬ rules.Hashable checked
    · rw [ih hearlier]
      rfl
    · obtain ⟨other, hother, checked, hread, hhash⟩ := h
      rcases List.mem_append.mp hother with hother | hother
      · exact absurd ⟨other, hother, checked, hread, hhash⟩ hearlier
      · obtain rfl : other = item := by simpa using hother
        have hhashable : ∀ item ∈ payload, ∀ checked, ReadsAs rules item checked →
            rules.Hashable checked := fun earlier hearlier' checked' hread' =>
          not_not.mp fun hbad => hearlier ⟨earlier, hearlier', checked', hread', hbad⟩
        obtain ⟨state, hstate, -⟩ := parseItems_tracks payload hhashable
        rw [hstate]
        exact parseItem_unhashable hread hhash _

/-- The loop leaves no defect exactly when there is nothing to refuse. -/
theorem Tracks.defects_eq_nil_iff (h : Tracks rules payload state) :
    state.defects = [] ↔ (∀ item ∈ payload, WellFormed rules item) ∧ Distinct rules payload := by
  constructor
  · intro hnil
    constructor
    · intro item hitem
      by_contra hbad
      obtain ⟨i, hi⟩ := List.mem_iff_getElem?.mp hitem
      obtain ⟨text, htext⟩ := h.malformed i item hi hbad
      simp [hnil] at htext
    · rw [Distinct, List.pairwise_iff_getElem]
      rintro i j hi hj hlt ⟨identity, hidentity, hidentity'⟩
      obtain ⟨first, hfirst, hseen⟩ :=
        h.seen i _ identity (List.getElem?_eq_getElem hi) hidentity
      obtain ⟨first', hfirst', hseen'⟩ :=
        h.seen j _ identity (List.getElem?_eq_getElem hj) hidentity'
      obtain rfl : first = first' := Option.some.inj (hfirst.symm.trans hfirst')
      simp only [hnil, List.not_mem_nil, or_false] at hseen hseen'
      omega
  · exact fun ⟨hall, hdistinct⟩ => h.clean hall hdistinct

theorem mem_intercalate {defects : List String} {defect : String} (h : defect ∈ defects) :
    ∃ before after, "; ".intercalate defects = before ++ defect ++ after := by
  induction defects with
  | nil => simp at h
  | cons head defects ih =>
    by_cases hnil : defects = []
    · subst hnil
      obtain rfl : defect = head := by simpa using h
      exact ⟨"", "", by simp⟩
    · rw [String.intercalate_cons_of_ne_nil hnil]
      rcases List.mem_cons.mp h with rfl | h
      · exact ⟨"", "; " ++ "; ".intercalate defects, by simp [String.append_assoc]⟩
      · obtain ⟨before, after, heq⟩ := ih h
        exact ⟨head ++ "; " ++ before, after, by simp [heq, String.append_assoc]⟩

theorem Tracks.names (h : Tracks rules payload state) {i : ℕ} (hi : Offending rules payload i) :
    Names ("Malformed request: " ++ "; ".intercalate state.defects ++ ".") i := by
  have hdefect : ∃ text ∈ state.defects, (∃ defect, text = entryText i defect) ∨
      ∃ j, text = duplicateText i j ∨ text = duplicateText j i := by
    obtain ⟨item, hitem, hbad | ⟨j, other, hj, hother, identity, hidentity, hidentity'⟩⟩ := hi
    · obtain ⟨defect, hdefect⟩ := h.malformed i item hitem hbad
      exact ⟨_, hdefect, .inl ⟨defect, rfl⟩⟩
    · obtain ⟨first, hfirst, hseen⟩ := h.seen i item identity hitem hidentity
      obtain ⟨first', hfirst', hseen'⟩ := h.seen j other identity hother hidentity'
      obtain rfl : first = first' := Option.some.inj (hfirst.symm.trans hfirst')
      rcases hseen with rfl | hseen
      · rcases hseen' with rfl | hseen'
        · exact absurd rfl hj
        · exact ⟨_, hseen', .inr ⟨j, .inl rfl⟩⟩
      · exact ⟨_, hseen, .inr ⟨first, .inr rfl⟩⟩
  obtain ⟨text, htext, hkind⟩ := hdefect
  obtain ⟨before, after, heq⟩ := mem_intercalate htext
  exact ⟨"Malformed request: " ++ before, after ++ ".", text,
    by rw [heq]; simp [String.append_assoc], hkind⟩

end Loop

section Verdict

variable {py : Python} {rules : EntryRules Checked Signature Entry} {raw : ByteArray}

theorem Loads.unique {payload payload' : Json} {constant constant' : Bool}
    (h : Loads py raw payload constant) (h' : Loads py raw payload' constant') :
    payload = payload' ∧ constant = constant' := by
  obtain ⟨text, htext, hread⟩ := h
  obtain ⟨text', htext', hread'⟩ := h'
  obtain rfl := Option.some.inj (htext.symm.trans htext')
  exact Prod.mk.inj (Except.ok.inj (hread.symm.trans hread'))

theorem withinLimits_of_text {text : String} (htext : String.fromUTF8? raw = some text)
    (h : ∀ e, JsonText.read py.reprFloat py.limits (ofString text) = .error e → e = .decodeError) :
    WithinLimits py raw := by
  intro text' htext' e he
  obtain rfl := Option.some.inj (htext.symm.trans htext')
  exact h e he

/-- A body is either read, or it is refused as no JSON, or a limit of the reader is passed. -/
theorem loadBody_cases (py : Python) (raw : ByteArray) :
    (WithinLimits py raw ∧ ∃ payload constant, loadBody py raw = .ok payload ∧
      Loads py raw payload constant) ∨
    (WithinLimits py raw ∧ ∃ message, loadBody py raw = .error (.validation message) ∧
      ∀ payload constant, ¬ Loads py raw payload constant) ∨
    ¬ WithinLimits py raw ∧ ∃ e, loadBody py raw = .error e ∧
      ∀ message, e ≠ .validation message := by
  unfold loadBody
  cases htext : String.fromUTF8? raw with
  | none =>
    refine .inr (.inl ⟨fun text h => by simp [htext] at h, _, rfl, ?_⟩)
    rintro payload constant ⟨text, hsome, -⟩
    simp [htext] at hsome
  | some text =>
    have hlimited := JsonText.limited_read py.reprFloat py.limits (ofString text)
    cases hread : JsonText.read py.reprFloat py.limits (ofString text) with
    | ok result =>
      refine .inl ⟨withinLimits_of_text htext fun e he =>
        ?_, result.1, result.2, ?_, text, htext, ?_⟩
      · simp [hread] at he
      · simp only [hread]
      · exact hlimited.of_ok hread
    | error e =>
      by_cases he : e = .decodeError
      · subst he
        refine .inr (.inl ⟨withinLimits_of_text htext fun e he => ?_,
          "Malformed request: body is not valid JSON.", by simp only [hread], ?_⟩)
        · exact (Except.error.inj (hread.symm.trans he)).symm
        · rintro payload constant ⟨text', hsome, hok⟩
          obtain rfl := Option.some.inj (htext.symm.trans hsome)
          simp [hlimited.of_decodeError hread] at hok
      · refine .inr (.inr ⟨fun h => he (h text htext e hread), ?_⟩)
        simp only [hread]
        cases e with
        | decodeError => exact absurd rfl he
        | recursionError => exact ⟨.recursionError, rfl, by simp⟩
        | digitsError => exact ⟨.valueError, rfl, by simp⟩

theorem requireEntries_cases (payload : Json) :
    (∃ items, items ≠ [] ∧ payload = .arr items ∧ requireEntries payload = .ok items) ∨
    (∃ message, requireEntries payload = .error (.validation message) ∧
      ∀ items, payload = .arr items → items = []) := by
  unfold requireEntries
  split
  · exact .inl ⟨_, by simp, rfl, rfl⟩
  · rename_i hcons
    refine .inr ⟨_, rfl, fun items hitems => ?_⟩
    cases items with
    | nil => rfl
    | cons item items => exact absurd hitems (hcons item items)

theorem parseBody_eq_close {items : List Json} (hload : loadBody py raw = .ok (.arr items))
    (hne : items ≠ [])
    (hhash : ∀ item ∈ items, ∀ checked, ReadsAs rules item checked → rules.Hashable checked) :
    ∃ state, parseBody py rules raw = state.close ∧ Tracks rules items state := by
  obtain ⟨state, hstate, htracks⟩ := parseItems_tracks items hhash
  have hrequire : requireEntries (.arr items) = .ok items := by
    cases items with
    | nil => exact absurd rfl hne
    | cons item items => rfl
  refine ⟨state, ?_, htracks⟩
  unfold parseBody
  rw [hload]
  change (requireEntries (.arr items) >>= _) = _
  rw [hrequire]
  change (items.zipIdx.foldlM (parseItem rules) .start >>= _) = _
  rw [hstate]
  rfl

theorem parseBody_unhashable {items : List Json} (hload : loadBody py raw = .ok (.arr items))
    (h : ∃ item ∈ items, ∃ checked, ReadsAs rules item checked ∧ ¬ rules.Hashable checked) :
    parseBody py rules raw = .error .unicodeEncodeError := by
  have hrequire : requireEntries (.arr items) = .ok items := by
    cases items with
    | nil => simp at h
    | cons item items => rfl
  unfold parseBody
  rw [hload]
  change (requireEntries (.arr items) >>= _) = _
  rw [hrequire]
  change (items.zipIdx.foldlM (parseItem rules) .start >>= _) = _
  rw [parseItems_unhashable items h]
  rfl

theorem parseBody_load_error {e : BodyError} (h : loadBody py raw = .error e) :
    parseBody py rules raw = .error e := by
  rw [parseBody, h]
  rfl

theorem parseBody_not_entries {payload : Json} {e : BodyError}
    (hload : loadBody py raw = .ok payload) (h : requireEntries payload = .error e) :
    parseBody py rules raw = .error e := by
  rw [parseBody, hload]
  change (requireEntries payload >>= _) = _
  rw [h]
  rfl

theorem not_meets_of_error {e : BodyError} (h : parseBody py rules raw = .error e)
    (he : ∀ message, e ≠ .validation message) : ¬ Meets py rules (parseBody py rules raw) raw := by
  rintro (⟨entries, hok, -⟩ | ⟨message, herror, -⟩)
  · simp [h] at hok
  · exact he message (Except.error.inj (h.symm.trans herror))

theorem Tracks.close {items : List Json} {state : ParseState Entry} (h : Tracks rules items state)
    (hne : items ≠ []) : Acceptable rules items ∧ (∃ entries, state.close = .ok entries) ∨
      ¬ Acceptable rules items ∧ ∃ message, state.close = .error (.validation message) ∧
        ∀ i, Offending rules items i → Names message i := by
  by_cases hnil : state.defects = []
  · obtain ⟨hall, hdistinct⟩ := h.defects_eq_nil_iff.mp hnil
    exact .inl ⟨⟨hne, hall, hdistinct⟩, state.entries, if_pos hnil⟩
  · refine .inr ⟨fun hacceptable => hnil ?_, _, if_neg hnil, fun i => h.names⟩
    exact h.defects_eq_nil_iff.mpr ⟨hacceptable.wellFormed, hacceptable.distinct⟩

/-- The verdict on an array of elements that can be hashed depends on the constants alone. -/
theorem meets_of_array {items : List Json} {constant : Bool}
    (hload : loadBody py raw = .ok (.arr items)) (hloads : Loads py raw (.arr items) constant)
    (hne : items ≠ [])
    (hhash : ∀ item ∈ items, ∀ checked, ReadsAs rules item checked → rules.Hashable checked) :
    Meets py rules (parseBody py rules raw) raw ↔ (constant = true → ¬ Acceptable rules items) := by
  obtain ⟨state, hparse, htracks⟩ := parseBody_eq_close hload hne hhash
  have hloaded : ∀ payload constant', Loads py raw (.arr payload) constant' →
      payload = items ∧ constant' = constant := by
    intro payload constant' hloads'
    obtain ⟨hpayload, hconstant⟩ := hloads'.unique hloads
    exact ⟨Json.arr.inj hpayload, hconstant⟩
  rcases htracks.close hne with ⟨hacceptable, entries, hclose⟩ | ⟨hrefused, message, hclose, hnames⟩
  · constructor
    · rintro (⟨-, -, payload, hpayload, -⟩ | ⟨message, herror, -⟩) rfl
      · cases (hloaded payload false hpayload).2
      · simp [hparse, hclose] at herror
    · intro h
      obtain rfl : constant = false := Bool.eq_false_iff.mpr fun htrue => h htrue hacceptable
      exact .inl ⟨entries, hparse.trans hclose, items, hloads, hacceptable⟩
  · apply iff_of_true _ fun _ => hrefused
    refine .inr ⟨message, hparse.trans hclose, ?_, ?_⟩
    · rintro ⟨payload, hpayload, hacceptable⟩
      obtain ⟨rfl, -⟩ := hloaded payload false hpayload
      exact hrefused hacceptable
    · intro payload constant' hpayload
      obtain ⟨rfl, -⟩ := hloaded payload constant' hpayload
      exact hnames

theorem meets_of_not_entries {e : String} (hparse : parseBody py rules raw = .error (.validation e))
    (h : ∀ items constant, Loads py raw (.arr items) constant → items = []) :
    Meets py rules (parseBody py rules raw) raw := by
  refine .inr ⟨e, hparse, ?_, ?_⟩
  · rintro ⟨items, hloads, hacceptable⟩
    exact hacceptable.nonempty (h items false hloads)
  · rintro items constant hloads i ⟨item, hitem, -⟩
    simp [h items constant hloads] at hitem

theorem unharmed_of_not_entries (hwithin : WithinLimits py raw)
    (h : ∀ items constant, Loads py raw (.arr items) constant → items = []) :
    Unharmed py rules raw := by
  refine ⟨hwithin, ?_, ?_⟩
  · intro items constant hloads item hitem
    simp [h items constant hloads] at hitem
  · intro items hloads hacceptable
    exact hacceptable.nonempty (h items true hloads)

/-- A parser does what it should exactly when nothing that escapes it is in the body. -/
theorem meets_iff_unharmed (py : Python) (rules : EntryRules Checked Signature Entry)
    (raw : ByteArray) : Meets py rules (parseBody py rules raw) raw ↔ Unharmed py rules raw := by
  rcases loadBody_cases py raw with ⟨hwithin, payload, constant, hload, hloads⟩ |
    ⟨hwithin, message, hload, hnone⟩ | ⟨hwithin, e, hload, he⟩
  · rcases requireEntries_cases payload with ⟨items, hne, rfl, -⟩ | ⟨message, hrequire, hitems⟩
    · by_cases hhash : ∀ item ∈ items, ∀ checked, ReadsAs rules item checked →
          rules.Hashable checked
      · rw [meets_of_array hload hloads hne hhash]
        constructor
        · intro h
          refine ⟨hwithin, ?_, ?_⟩
          · intro payload constant' hpayload
            obtain rfl := Json.arr.inj (hpayload.unique hloads).1
            exact hhash
          · intro payload hpayload
            obtain ⟨harr, hconstant⟩ := hpayload.unique hloads
            obtain rfl := Json.arr.inj harr
            exact h hconstant.symm
        · rintro h rfl
          exact h.constants items hloads
      · have hbad : ∃ item ∈ items, ∃ checked, ReadsAs rules item checked ∧
            ¬ rules.Hashable checked := by
          by_contra hnone
          exact hhash fun item hitem checked hread => by_contra fun h =>
            hnone ⟨item, hitem, checked, hread, h⟩
        apply iff_of_false (not_meets_of_error (parseBody_unhashable hload hbad) (by simp))
        exact fun h => hhash (h.hashable items constant hloads)
    · have hempty : ∀ items constant, Loads py raw (.arr items) constant → items = [] :=
        fun items constant' hloads' => hitems items (hloads'.unique hloads).1.symm
      exact iff_of_true (meets_of_not_entries (parseBody_not_entries hload hrequire) hempty)
        (unharmed_of_not_entries hwithin hempty)
  · have hempty : ∀ items constant, Loads py raw (.arr items) constant → items = [] :=
      fun items constant hloads => absurd hloads (hnone _ _)
    exact iff_of_true (meets_of_not_entries (parseBody_load_error hload) hempty)
      (unharmed_of_not_entries hwithin hempty)
  · exact iff_of_false (not_meets_of_error (parseBody_load_error hload) he)
      fun h => hwithin h.within

/-- When the three parsers do what they should. -/
theorem bodies_meet_iff (py : Python) (raw : ByteArray) :
    (Meets py (demandRules py) (parseStockDemandBody py raw) raw ↔
        Unharmed py (demandRules py) raw) ∧
      (Meets py (demandDeletedRules py) (parseStockDemandDeletedBody py raw) raw ↔
        Unharmed py (demandDeletedRules py) raw) ∧
      (Meets py itemsProcessedRules (parseItemsProcessedBody py raw) raw ↔
        Unharmed py itemsProcessedRules raw) :=
  ⟨meets_iff_unharmed py _ raw, meets_iff_unharmed py _ raw, meets_iff_unharmed py _ raw⟩

theorem fromUTF8?_toUTF8 (s : String) : String.fromUTF8? s.toUTF8 = some s := by
  unfold String.fromUTF8?
  exact dif_pos s.isValidUTF8

section Surrogate

def asciiPython : Python := ⟨PyText.asciiLower, id, fun _ => "", 1000⟩

/-- An entry whose properties hold the escape of a lone surrogate. -/
def surrogateBody : String :=
  "[\x7b\"itemCategory\":\"K\",\"properties\":\x7b\"k\":\"\\ud800\"\x7d," ++
    "\"quantityRequested\":1\x7d]"

theorem eq_error_of_map {α : Type} {result : Except BodyError α} {e : BodyError}
    (h : result.map (fun _ => ()) = .error e) : result = .error e := by
  cases result with
  | error e' => exact congrArg Except.error (Except.error.inj h)
  | ok a => cases h

/-- A lone surrogate in the properties of an entry is an exception that nobody catches. -/
theorem lone_surrogate_escapes :
    parseStockDemandBody asciiPython surrogateBody.toUTF8 = .error .unicodeEncodeError ∧
      ¬ Meets asciiPython (demandRules asciiPython)
        (parseStockDemandBody asciiPython surrogateBody.toUTF8) surrogateBody.toUTF8 := by
  have herror : parseStockDemandBody asciiPython surrogateBody.toUTF8 =
      .error .unicodeEncodeError := by
    unfold parseStockDemandBody parseBody loadBody
    rw [fromUTF8?_toUTF8]
    apply eq_error_of_map
    decide +kernel
  refine ⟨herror, ?_⟩
  rw [herror]
  rintro (⟨entries, hok, -⟩ | ⟨message, hvalidation, -⟩)
  · cases hok
  · cases hvalidation

end Surrogate

end Verdict

end BeyoManager.StockReport.WebhookBodies
