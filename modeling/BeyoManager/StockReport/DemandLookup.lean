import BeyoManager.Library.PyText
import BeyoManager.StockReport.Demand

/-! # Categories of a demand request

An entry names its category as text. The categories of a request are looked up under the
lower-cased texts, and every text is resolved as the first one of the request with its key.
-/

namespace BeyoManager.StockReport

open PyString Relational

/-- `item_categories`. -/
structure ItemCategory where
  clientId : ClientId
  name : String
  isDeleted : Bool
  deriving DecidableEq, Repr

section Resolution

variable (lower sqlLower : String → String) (categories : List ItemCategory)

/-- `item_category_key`, of the text of an entry. -/
def itemCategoryKey (raw : String) : String := lower (strip raw)

/-- The live categories under the keys of some texts; the statement lower-cases in SQL. -/
def categoryCandidates (raws : List String) : List ItemCategory :=
  categories.filter fun c =>
    !c.isDeleted && decide (sqlLower c.name ∈ raws.map (itemCategoryKey lower))

def resolveCategory (candidates : List ItemCategory) (raw : String) : Option ClientId :=
  match candidates.filter fun c => c.name == strip raw with
  | [exact] => some exact.clientId
  | _ =>
    match candidates.filter fun c => lower c.name == itemCategoryKey lower raw with
    | [caseInsensitive] => some caseInsensitive.clientId
    | _ => none

/-- `resolve_categories_for_entries`, from the texts of the entries. -/
def resolveCategoriesForEntries (raws : List String) : List (String × Option ClientId) :=
  Dict.firstOf (itemCategoryKey lower)
    (resolveCategory lower (categoryCandidates lower sqlLower categories raws)) raws

/-- `category_by_key.get`. -/
def categoryByKey (raws : List String) (key : String) : Option ClientId :=
  ((resolveCategoriesForEntries lower sqlLower categories raws).find? fun e => e.1 = key).bind
    Prod.snd

/-- The category that a text names by itself: the one with exactly this name, else the only one
with the name in another case. -/
def ownCategory (raw : String) : Option ClientId :=
  let live := categories.filter fun c => !c.isDeleted
  match live.find? fun c => c.name == strip raw with
  | some exact => some exact.clientId
  | none =>
    match live.filter fun c => lower c.name == lower (strip raw) with
    | [c] => some c.clientId
    | _ => none

end Resolution

section Own

variable {lower sqlLower : String → String} {categories : List ItemCategory} {raws : List String}
  {raw first : String}

def sameCase (lower : String → String) (categories : List ItemCategory) (raw : String) :
    List ItemCategory :=
  (categories.filter fun c => !c.isDeleted).filter fun c => lower c.name == lower (strip raw)

def IsName (categories : List ItemCategory) (raw : String) : Prop :=
  ∃ c ∈ categories, c.isDeleted = false ∧ c.name = strip raw

instance (categories : List ItemCategory) (raw : String) : Decidable (IsName categories raw) :=
  inferInstanceAs (Decidable (∃ c ∈ categories, _))

/-- Live categories have distinct names. -/
def NamesDistinct (categories : List ItemCategory) : Prop :=
  Keyed ItemCategory.name (categories.filter fun c => !c.isDeleted)

instance (categories : List ItemCategory) : Decidable (NamesDistinct categories) :=
  inferInstanceAs (Decidable (Keyed _ _))

theorem mem_sameCase {c : ItemCategory} : c ∈ sameCase lower categories raw ↔
    (c ∈ categories ∧ c.isDeleted = false) ∧ lower c.name = lower (strip raw) := by
  rw [sameCase, List.mem_filter, List.mem_filter]
  simp

def namedOrOnly (found : List ItemCategory) (name : String) : Option ClientId :=
  match found.find? fun c => c.name == name with
  | some exact => some exact.clientId
  | none =>
    match found with
    | [c] => some c.clientId
    | _ => none

theorem namedOrOnly_eq_some_iff {found : List ItemCategory} (h : Keyed ItemCategory.name found)
    {name : String} {id : ClientId} : namedOrOnly found name = some id ↔
      ∃ c ∈ found, c.clientId = id ∧ (c.name = name ∨ found = [c]) := by
  unfold namedOrOnly
  cases hfind : found.find? fun c => c.name == name with
  | some exact =>
    have hmem := List.mem_of_find?_eq_some hfind
    have hname : exact.name = name := by simpa using List.find?_some hfind
    simp only [Option.some.injEq]
    constructor
    · rintro rfl
      exact ⟨exact, hmem, rfl, .inl hname⟩
    · rintro ⟨c, hc, rfl, hcn | rfl⟩
      · rw [h.inj hmem hc (hname.trans hcn.symm)]
      · rw [List.mem_singleton.mp hmem]
  | none =>
    have hnone : ∀ c ∈ found, c.name ≠ name := by simpa using List.find?_eq_none.mp hfind
    rcases found with _ | ⟨c, _ | ⟨d, l⟩⟩
    · simp
    · simp only [Option.some.injEq, List.mem_singleton, exists_eq_left, or_true, and_true]
    · refine iff_of_false (by simp) ?_
      rintro ⟨e, he, -, hname | hone⟩
      · exact hnone e he hname
      · simp at hone

theorem namedOrOnly_singleton (c : ItemCategory) (name : String) :
    namedOrOnly [c] name = some c.clientId :=
  (namedOrOnly_eq_some_iff (by simp [Keyed])).mpr ⟨c, List.mem_singleton_self c, rfl, .inr rfl⟩

theorem namedOrOnly_eq_none_iff {found : List ItemCategory} (h : Keyed ItemCategory.name found)
    {name : String} :
    namedOrOnly found name = none ↔ found.length ≠ 1 ∧ ∀ c ∈ found, c.name ≠ name := by
  rw [Option.eq_none_iff_forall_ne_some]
  constructor
  · refine fun hnone => ⟨fun hlength => ?_, fun c hc hname => ?_⟩
    · obtain ⟨c, rfl⟩ := List.length_eq_one_iff.mp hlength
      exact hnone _ (namedOrOnly_singleton c name)
    · exact hnone _ ((namedOrOnly_eq_some_iff h).mpr ⟨c, hc, rfl, .inl hname⟩)
  · rintro ⟨hlength, hnames⟩ id hsome
    obtain ⟨c, hc, -, hname | rfl⟩ := (namedOrOnly_eq_some_iff h).mp hsome
    · exact hnames c hc hname
    · exact hlength rfl

/-- The categories with the name of a text in some case that the statement of a request finds. -/
def fetchedCase (lower sqlLower : String → String) (categories : List ItemCategory)
    (raws : List String) (raw : String) : List ItemCategory :=
  (sameCase lower categories raw).filter fun c =>
    decide (sqlLower c.name ∈ raws.map (itemCategoryKey lower))

theorem filter_candidates_key :
    (categoryCandidates lower sqlLower categories raws).filter
      (fun c => lower c.name == itemCategoryKey lower raw) =
      fetchedCase lower sqlLower categories raws raw := by
  simp only [categoryCandidates, fetchedCase, sameCase, List.filter_filter, itemCategoryKey]
  exact List.filter_congr fun c _ => by ac_rfl

theorem keyed_sameCase (hnames : NamesDistinct categories) :
    Keyed ItemCategory.name (sameCase lower categories raw) :=
  List.Nodup.sublist (List.filter_sublist.map _) hnames

theorem keyed_fetchedCase (hnames : NamesDistinct categories) :
    Keyed ItemCategory.name (fetchedCase lower sqlLower categories raws raw) :=
  List.Nodup.sublist (List.filter_sublist.map _) (keyed_sameCase hnames)

theorem resolveCategory_candidates (hnames : NamesDistinct categories) :
    resolveCategory lower (categoryCandidates lower sqlLower categories raws) raw =
      namedOrOnly (fetchedCase lower sqlLower categories raws raw) (strip raw) := by
  have hexact : (categoryCandidates lower sqlLower categories raws).filter
      (fun c => c.name == strip raw) =
        ((fetchedCase lower sqlLower categories raws raw).find?
          fun c => c.name == strip raw).toList := by
    rw [← Keyed.filter_eq_toList_find? (keyed_fetchedCase hnames), ← filter_candidates_key,
      List.filter_filter]
    refine List.filter_congr fun c _ => ?_
    rw [Bool.eq_iff_iff]
    simp only [Bool.and_eq_true, beq_iff_eq, iff_self_and]
    exact fun hname => congrArg lower hname
  unfold namedOrOnly
  rw [resolveCategory, hexact, filter_candidates_key]
  cases (fetchedCase lower sqlLower categories raws raw).find? fun c => c.name == strip raw <;> rfl

theorem categoryByKey_eq
    (hfirst : raws.find? (fun r => itemCategoryKey lower r = itemCategoryKey lower raw) =
      some first) :
    categoryByKey lower sqlLower categories raws (itemCategoryKey lower raw) =
      resolveCategory lower (categoryCandidates lower sqlLower categories raws) first := by
  rw [categoryByKey, resolveCategoriesForEntries, Dict.find?_firstOf, hfirst]
  rfl

theorem ownCategory_eq : ownCategory lower categories raw =
    namedOrOnly (sameCase lower categories raw) (strip raw) := by
  have hfind : (categories.filter fun c => !c.isDeleted).find? (fun c => c.name == strip raw) =
      (sameCase lower categories raw).find? fun c => c.name == strip raw := by
    rw [sameCase]
    conv_rhs => rw [List.find?_filter]
    congr 1
    funext c
    rw [Bool.eq_iff_iff]
    simp only [beq_iff_eq, decide_eq_true_eq, iff_and_self]
    exact fun hname => congrArg lower hname
  unfold namedOrOnly
  rw [ownCategory, hfind]
  rfl

/-- After the first text with its key, a text is left to the category that it names by itself:
the statement finds that category, and the first text is spelled alike or there is no other; or it
names none, and no other text with its key does, nor is one of several the only one found. -/
def LeftAlone (lower sqlLower : String → String) (categories : List ItemCategory)
    (raws : List String) (first raw : String) : Prop :=
  let same := sameCase lower categories raw
  let found := fetchedCase lower sqlLower categories raws raw
  (∃ c ∈ found, c.name = strip raw ∧ (strip first = strip raw ∨ found = [c])) ∨
    ¬ IsName categories raw ∧
      (same.length ≤ 1 ∧ found = same ∨
        1 < same.length ∧ found.length ≠ 1 ∧ ∀ c ∈ found, c.name ≠ strip first)

theorem isName_iff : IsName categories raw ↔
    ∃ c ∈ sameCase lower categories raw, c.name = strip raw := by
  constructor
  · rintro ⟨c, hc, hlive, hname⟩
    exact ⟨c, mem_sameCase.mpr ⟨⟨hc, hlive⟩, congrArg lower hname⟩, hname⟩
  · rintro ⟨c, hc, hname⟩
    obtain ⟨⟨hc, hlive⟩, -⟩ := mem_sameCase.mp hc
    exact ⟨c, hc, hlive, hname⟩

/-- Some categories of a list against all of them, one looked up by one name and the other by
another. -/
theorem namedOrOnly_eq_iff {same found : List ItemCategory} (hsub : found.Sublist same)
    (hids : Keyed ItemCategory.clientId same) (hnames : Keyed ItemCategory.name same)
    {name first : String} :
    namedOrOnly found first = namedOrOnly same name ↔
      (∃ c ∈ found, c.name = name ∧ (first = name ∨ found = [c])) ∨
        (∀ c ∈ same, c.name ≠ name) ∧ (same.length ≤ 1 ∧ found = same ∨
          1 < same.length ∧ found.length ≠ 1 ∧ ∀ c ∈ found, c.name ≠ first) := by
  have hfound : Keyed ItemCategory.name found := List.Nodup.sublist (hsub.map _) hnames
  by_cases hname : ∃ c ∈ same, c.name = name
  · obtain ⟨c, hc, rfl⟩ := hname
    have hown : namedOrOnly same c.name = some c.clientId :=
      (namedOrOnly_eq_some_iff hnames).mpr ⟨c, hc, rfl, .inl rfl⟩
    rw [hown, namedOrOnly_eq_some_iff hfound, or_iff_left fun h => h.1 c hc rfl]
    constructor
    · rintro ⟨d, hd, hid, h⟩
      obtain rfl := hids.inj (hsub.subset hd) hc hid
      exact ⟨d, hd, rfl, h.imp_left Eq.symm⟩
    · rintro ⟨d, hd, hdc, h⟩
      obtain rfl := hnames.inj (hsub.subset hd) hc hdc
      exact ⟨d, hd, rfl, h.imp_left Eq.symm⟩
  · have hnone : ∀ c ∈ same, c.name ≠ name := fun c hc he => hname ⟨c, hc, he⟩
    rw [or_iff_right fun ⟨c, hc, he, _⟩ => hnone c (hsub.subset hc) he, and_iff_right hnone]
    rcases hs : same with _ | ⟨c, _ | ⟨d, l⟩⟩
    · subst hs
      obtain rfl := List.sublist_nil.mp hsub
      simp [namedOrOnly]
    · subst hs
      rcases List.sublist_singleton.mp hsub with rfl | rfl
      · rw [namedOrOnly_singleton]
        simp [namedOrOnly]
      · rw [namedOrOnly_singleton, namedOrOnly_singleton]
        simp
    · have hlength : 1 < same.length := by simp [hs]
      rw [← hs, (namedOrOnly_eq_none_iff hnames).mpr ⟨hlength.ne', hnone⟩,
        namedOrOnly_eq_none_iff hfound, or_iff_right fun h => absurd h.1 (not_le.mpr hlength),
        and_iff_right hlength]

/-- Every text of a request is resolved as by itself if and only if each is left to the category
that it names, whatever the lower-casing of SQL. -/
theorem entries_resolve_alone (hids : Keyed ItemCategory.clientId categories)
    (hnames : NamesDistinct categories) :
    (∀ raw ∈ raws, categoryByKey lower sqlLower categories raws (itemCategoryKey lower raw) =
      ownCategory lower categories raw) ↔
    ∀ raw ∈ raws, ∀ first,
      raws.find? (fun r => itemCategoryKey lower r = itemCategoryKey lower raw) = some first →
        LeftAlone lower sqlLower categories raws first raw := by
  refine forall₂_congr fun raw hraw => ?_
  obtain ⟨first, hfirst⟩ : ∃ first, raws.find?
      (fun r => itemCategoryKey lower r = itemCategoryKey lower raw) = some first := by
    rw [← Option.isSome_iff_exists, List.find?_isSome]
    exact ⟨raw, hraw, by simp⟩
  have hkey : itemCategoryKey lower first = itemCategoryKey lower raw := by
    simpa using List.find?_some hfirst
  have hsame : fetchedCase lower sqlLower categories raws first =
      fetchedCase lower sqlLower categories raws raw := by
    rw [fetchedCase, fetchedCase, sameCase, sameCase,
      show lower (strip first) = lower (strip raw) from hkey]
  have hsub : (sameCase lower categories raw).Sublist categories :=
    List.filter_sublist.trans List.filter_sublist
  have hfound : (fetchedCase lower sqlLower categories raws raw).Sublist
      (sameCase lower categories raw) := List.filter_sublist
  simp only [hfirst, Option.some.injEq, forall_eq']
  rw [categoryByKey_eq hfirst, resolveCategory_candidates hnames, ownCategory_eq, hsame,
    namedOrOnly_eq_iff hfound (List.Nodup.sublist (hsub.map _) hids) (keyed_sameCase hnames),
    LeftAlone, @isName_iff lower]
  simp only [not_exists, not_and, ne_eq]

/-- `str.lower`, of text in ASCII. -/
def asciiLower (s : String) : String := String.ofList (s.toList.map Char.toLower)

def sofaCategories : List ItemCategory := [⟨"c1", "Sofas", false⟩, ⟨"c2", "sofas", false⟩]

theorem entries_resolve_alone_sofas :
    (∀ raw ∈ ["Sofas", " Sofas", "chairs"], categoryByKey asciiLower asciiLower sofaCategories
        ["Sofas", " Sofas", "chairs"] (itemCategoryKey asciiLower raw) =
      ownCategory asciiLower sofaCategories raw) ↔
    ∀ raw ∈ ["Sofas", " Sofas", "chairs"], ∀ first,
      ["Sofas", " Sofas", "chairs"].find?
        (fun r => itemCategoryKey asciiLower r = itemCategoryKey asciiLower raw) = some first →
          LeftAlone asciiLower asciiLower sofaCategories ["Sofas", " Sofas", "chairs"] first raw :=
  entries_resolve_alone (by decide) (by decide)

/-- After an entry in another case, the exact name of a category is not found. -/
theorem exact_name_unresolved :
    categoryByKey asciiLower asciiLower sofaCategories ["SOFAS", "Sofas"]
        (itemCategoryKey asciiLower "Sofas") = none ∧
      ownCategory asciiLower sofaCategories "Sofas" = some "c1" ∧
      categoryByKey asciiLower asciiLower sofaCategories ["Sofas", "SOFAS"]
        (itemCategoryKey asciiLower "Sofas") = some "c1" := by
  decide +kernel

/-- A name that SQL lower-cases to another text than `str.lower` is not found at all. -/
example :
    let sqlLower := fun s => if s = "İskemle" then "iskemle" else asciiLower s
    let lower := fun s => if s = "İskemle" then "i̇skemle" else asciiLower s
    categoryByKey lower sqlLower [⟨"c1", "İskemle", false⟩] ["İskemle"]
        (itemCategoryKey lower "İskemle") = none ∧
      ownCategory lower [⟨"c1", "İskemle", false⟩] "İskemle" = some "c1" := by
  decide +kernel

end Own

end BeyoManager.StockReport
