import Mathlib.Data.List.Sort

/-! # Stable sorts by a key -/

namespace Sorting

variable {α τ : Type*} [LinearOrder τ]

def sortBy (key : α → τ) (l : List α) : List α :=
  l.insertionSort fun a b => key a ≤ key b

/-- A stable sort by a key, greatest first. -/
def sortByDescending (key : α → τ) (l : List α) : List α :=
  l.insertionSort fun a b => key b ≤ key a

/-- The first of the elements with the least key. -/
def minBy (key : α → τ) (l : List α) : Option α := (sortBy key l).head?

theorem sortBy_perm (key : α → τ) (l : List α) : (sortBy key l).Perm l :=
  List.perm_insertionSort _ _

theorem sortByDescending_perm (key : α → τ) (l : List α) : (sortByDescending key l).Perm l :=
  List.perm_insertionSort _ _

variable {key : α → τ} {l : List α}

@[simp] theorem mem_sortBy {a : α} : a ∈ sortBy key l ↔ a ∈ l :=
  (sortBy_perm key l).mem_iff

theorem nodup_sortBy : (sortBy key l).Nodup ↔ l.Nodup := (sortBy_perm key l).nodup_iff

theorem pairwise_sortBy : (sortBy key l).Pairwise fun a b => key a ≤ key b := by
  have : IsTrans α fun a b => key a ≤ key b := ⟨fun _ _ _ => le_trans⟩
  have : Std.Total fun a b : α => key a ≤ key b := ⟨fun a b => le_total (key a) (key b)⟩
  exact List.pairwise_insertionSort _ _

theorem minBy_eq_none : minBy key l = none ↔ l = [] := by
  rw [minBy, List.head?_eq_none_iff, ← List.length_eq_zero_iff, (sortBy_perm key l).length_eq,
    List.length_eq_zero_iff]

theorem minBy_spec {a : α} (h : minBy key l = some a) : a ∈ l ∧ ∀ b ∈ l, key a ≤ key b := by
  obtain ⟨rest, hrest⟩ := List.head?_eq_some_iff.mp h
  have hsorted : (sortBy key l).Pairwise fun a b => key a ≤ key b := pairwise_sortBy
  have hmem : ∀ b, b ∈ l ↔ b = a ∨ b ∈ rest := fun b => by
    rw [← @mem_sortBy _ _ _ key l b, hrest, List.mem_cons]
  rw [hrest] at hsorted
  refine ⟨(hmem a).mpr (.inl rfl), fun b hb => ?_⟩
  rcases (hmem b).mp hb with rfl | hb
  · exact le_rfl
  · exact List.rel_of_pairwise_cons hsorted hb

theorem sortBy_eq_of_perm {l' : List α} (h : l.Perm l')
    (hkey : ∀ a ∈ l, ∀ b ∈ l, key a = key b → a = b) : sortBy key l = sortBy key l' := by
  have hsorted : (sortBy key l).Pairwise fun a b => key a ≤ key b := pairwise_sortBy
  refine List.Perm.eq_of_pairwise ?_ hsorted pairwise_sortBy
    ((sortBy_perm key l).trans (h.trans (sortBy_perm key l').symm))
  intro a b ha hb hab hba
  exact hkey a (mem_sortBy.mp ha) b (h.symm.subset (mem_sortBy.mp hb)) (le_antisymm hab hba)

theorem map_sortByDescending {β : Type*} (f : α → β) (key' : β → τ)
    (h : ∀ a, key' (f a) = key a) :
    (sortByDescending key l).map f = sortByDescending key' (l.map f) :=
  List.map_insertionSort _ _ f l fun a _ b _ => by simp only [h]

theorem map_sortBy {β : Type*} (f : α → β) (key' : β → τ)
    (h : ∀ a ∈ l, ∀ b ∈ l, key a ≤ key b ↔ key' (f a) ≤ key' (f b)) :
    (sortBy key l).map f = sortBy key' (l.map f) :=
  List.map_insertionSort _ _ f l h

section Positions

variable [DecidableEq α]

theorem idxOf_sortBy_lt {a b : α} (ha : a ∈ l) (hb : b ∈ l) (h : key a < key b) :
    (sortBy key l).idxOf a < (sortBy key l).idxOf b := by
  have hia := List.idxOf_lt_length_iff.mpr ((sortBy_perm key l).mem_iff.mpr ha)
  have hib := List.idxOf_lt_length_iff.mpr ((sortBy_perm key l).mem_iff.mpr hb)
  have hsorted : (sortBy key l).Pairwise fun a b => key a ≤ key b := pairwise_sortBy
  rcases lt_trichotomy ((sortBy key l).idxOf a) ((sortBy key l).idxOf b) with hlt | heq | hgt
  · exact hlt
  · have hab : a = b := (List.idxOf_inj (mem_sortBy.mpr ha)).mp heq
    exact absurd h (hab ▸ lt_irrefl _)
  · have hle := List.pairwise_iff_getElem.mp hsorted _ _ hib hia hgt
    rw [List.getElem_idxOf, List.getElem_idxOf] at hle
    exact absurd h (not_lt.mpr hle)

theorem idxOf_sortBy_lt_iff (hkey : ∀ a ∈ l, ∀ b ∈ l, key a = key b → a = b) {a b : α} (ha : a ∈ l)
    (hb : b ∈ l) : (sortBy key l).idxOf a < (sortBy key l).idxOf b ↔ key a < key b := by
  constructor
  · intro h
    by_contra hnot
    rcases (not_lt.mp hnot).lt_or_eq with hlt | heq
    · exact absurd h (not_lt.mpr (idxOf_sortBy_lt hb ha hlt).le)
    · obtain rfl := hkey b hb a ha heq
      exact absurd h (lt_irrefl _)
  · exact idxOf_sortBy_lt ha hb

theorem map_idxOf_self (hn : l.Nodup) : l.map l.idxOf = List.range l.length := by
  refine List.ext_getElem (by simp) fun i hi _ => ?_
  rw [List.getElem_map, List.getElem_range, hn.idxOf_getElem]

theorem idxOf_map_of_injOn {β : Type*} [DecidableEq β] {f : α → β} {a : α} (ha : a ∈ l)
    (hf : ∀ b ∈ l, f b = f a → b = a) : (l.map f).idxOf (f a) = l.idxOf a := by
  induction l with
  | nil => cases ha
  | cons b l ih =>
    rw [List.map_cons]
    by_cases hb : b = a
    · subst hb
      rw [List.idxOf_cons_self, List.idxOf_cons_self]
    · have hfb : f b ≠ f a := fun he => hb (hf b List.mem_cons_self he)
      have ha : a ∈ l := (List.mem_cons.mp ha).resolve_left (Ne.symm hb)
      rw [List.idxOf_cons_ne _ hfb, List.idxOf_cons_ne _ hb,
        ih ha fun c hc => hf c (List.mem_cons_of_mem b hc)]

end Positions

end Sorting
