import BeyoManager.Library.Sorting
import Mathlib.Data.List.InsertIdx
import Mathlib.Tactic.Linarith

/-! # Dense orders

The elements of a group hold the orders 1, 2, … without a gap. Sorted by its orders such a group is
a sequence, and the shifts of bands of orders move, remove and append elements of the sequence.
-/

namespace DenseOrder

open Sorting

variable {α : Type*} {order order' : α → ℤ} {l L : List α}

/-- Each element of a sequence holds the order of its place. -/
def InPlace (order : α → ℤ) (L : List α) : Prop :=
  ∀ i (h : i < L.length), order L[i] = i + 1

/-- The orders of a group are 1, 2, … without a gap. -/
def Dense (order : α → ℤ) (l : List α) : Prop :=
  (l.map order).Perm ((List.range l.length).map fun i : ℕ => (i : ℤ) + 1)

instance (order : α → ℤ) (l : List α) : Decidable (Dense order l) :=
  inferInstanceAs (Decidable (List.Perm _ _))

/-- The order after the element with order `p` moved to `t`. -/
def moved (p t i : ℤ) : ℤ :=
  if i = p then t
  else if t < p then if t ≤ i ∧ i < p then i + 1 else i
  else if p < i ∧ i ≤ t then i - 1 else i

/-- The order after the element with order `p` left. -/
def closedUp (p i : ℤ) : ℤ := if p < i then i - 1 else i

theorem inPlace_iff_map : InPlace order L ↔
    L.map order = (List.range L.length).map fun i : ℕ => (i : ℤ) + 1 := by
  constructor
  · intro h
    refine List.ext_getElem (by simp) fun i hi _ => ?_
    simpa using h i (by simpa using hi)
  · intro h i hi
    have hget := congrArg (fun m : List ℤ => m[i]?) h
    simpa [hi] using hget

theorem inPlace_sortBy (h : Dense order l) : InPlace order (sortBy order l) := by
  rw [inPlace_iff_map, (sortBy_perm order l).length_eq]
  refine List.Perm.eq_of_pairwise (fun a b _ _ => le_antisymm) ?_ ?_
    (((sortBy_perm order l).map order).trans h)
  · exact List.pairwise_map.mpr pairwise_sortBy
  · rw [List.pairwise_map]
    refine List.pairwise_lt_range.imp fun {i j} hij => ?_
    omega

theorem InPlace.inj (h : InPlace order L) {x y : α} (hx : x ∈ L) (hy : y ∈ L)
    (hxy : order x = order y) : x = y := by
  obtain ⟨i, hi, rfl⟩ := List.getElem_of_mem hx
  obtain ⟨j, hj, rfl⟩ := List.getElem_of_mem hy
  rw [h i hi, h j hj] at hxy
  obtain rfl : i = j := by omega
  rfl

theorem Dense.inj (h : Dense order l) {x y : α} (hx : x ∈ l) (hy : y ∈ l)
    (hxy : order x = order y) : x = y :=
  (inPlace_sortBy h).inj (mem_sortBy.mpr hx) (mem_sortBy.mpr hy) hxy

theorem inPlace_map {β : Type*} {order : β → ℤ} {f : α → β} :
    InPlace order (L.map f) ↔ InPlace (fun x => order (f x)) L := by
  rw [inPlace_iff_map, inPlace_iff_map, List.map_map, List.length_map]
  rfl

theorem Dense.max?_getD (h : Dense order l) : (l.map order).max?.getD 0 = l.length := by
  have hmem : ∀ o, o ∈ l.map order ↔ ∃ i < l.length, (i : ℤ) + 1 = o := by
    intro o
    rw [h.mem_iff]
    simp
  cases hlength : l.length with
  | zero =>
    rw [List.length_eq_zero_iff.mp hlength]
    rfl
  | succ n =>
    have hmax : (l.map order).max? = some ((n : ℤ) + 1) := by
      rw [List.max?_eq_some_iff]
      constructor
      · exact (hmem _).mpr ⟨n, by omega, rfl⟩
      · intro o ho
        obtain ⟨i, hi, rfl⟩ := (hmem o).mp ho
        omega
    rw [hmax]
    simp

theorem InPlace.sortBy_eq (h : InPlace order L) (hp : l.Perm L) : sortBy order l = L := by
  have hsorted : L.Pairwise fun x y => order x ≤ order y := by
    rw [List.pairwise_iff_getElem]
    intro i j hi hj hij
    rw [h i hi, h j hj]
    omega
  refine List.Perm.eq_of_pairwise (fun x y hx hy hxy hyx => ?_) pairwise_sortBy hsorted
    ((sortBy_perm order l).trans hp)
  exact h.inj (hp.subset (mem_sortBy.mp hx)) hy (le_antisymm hxy hyx)

section Sequences

variable {a b : ℕ}

theorem getElem_cons_eraseIdx_perm (ha : a < L.length) : (L[a] :: L.eraseIdx a).Perm L := by
  have hlength : a ≤ (L.eraseIdx a).length := by
    rw [List.length_eraseIdx_of_lt ha]
    omega
  have hperm := List.perm_insertIdx L[a] (L.eraseIdx a) hlength
  rw [List.insertIdx_eraseIdx_getElem ha] at hperm
  exact hperm.symm

theorem perm_move (ha : a < L.length) (hb : b < L.length) :
    ((L.eraseIdx a).insertIdx b L[a]).Perm L := by
  have hlength : b ≤ (L.eraseIdx a).length := by
    rw [List.length_eraseIdx_of_lt ha]
    omega
  exact (List.perm_insertIdx _ _ hlength).trans (getElem_cons_eraseIdx_perm ha)

/-- Shifting the orders between moves the element. -/
theorem InPlace.move (h : InPlace order L) (ha : a < L.length) (hb : b < L.length)
    (horder : ∀ x ∈ L, order' x = moved (a + 1) (b + 1) (order x)) :
    InPlace order' ((L.eraseIdx a).insertIdx b L[a]) := by
  have hlength := List.length_eraseIdx_of_lt ha
  intro i hi
  have hi' : i < L.length := by rwa [(perm_move ha hb).length_eq] at hi
  have hvalue : ∀ j (hj : j < L.length), order' L[j] = moved (a + 1) (b + 1) (j + 1) := by
    intro j hj
    rw [horder _ (List.getElem_mem hj), h j hj]
  rw [List.getElem_insertIdx]
  split
  · rename_i hlt
    rw [List.getElem_eraseIdx]
    split
    · rw [hvalue, moved]
      split_ifs <;> omega
    · rw [hvalue, moved]
      split_ifs <;> omega
  · split
    · rename_i heq
      rw [hvalue, moved]
      split_ifs <;> omega
    · rw [List.getElem_eraseIdx]
      split
      · rw [hvalue, moved]
        split_ifs <;> omega
      · rw [hvalue, moved]
        split_ifs <;> omega

theorem InPlace.remove (h : InPlace order L) (ha : a < L.length)
    (horder : ∀ x ∈ L.eraseIdx a, order' x = closedUp (a + 1) (order x)) :
    InPlace order' (L.eraseIdx a) := by
  have hlength := List.length_eraseIdx_of_lt ha
  intro i hi
  rw [horder _ (List.getElem_mem hi), List.getElem_eraseIdx]
  split
  · rw [h, closedUp]
    split_ifs <;> omega
  · rw [h, closedUp]
    split_ifs <;> omega

theorem InPlace.append (h : InPlace order L) {x : α} (hx : order x = L.length + 1) :
    InPlace order (L ++ [x]) := by
  intro i hi
  rw [List.getElem_append]
  split
  · exact h i _
  · rename_i hlt
    have hi : i = L.length := by
      rw [List.length_append, List.length_singleton] at hi
      omega
    simpa [hi] using hx

end Sequences

end DenseOrder
