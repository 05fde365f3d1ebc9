import Mathlib.Algebra.BigOperators.Ring.Finset
import Mathlib.Algebra.Order.BigOperators.Group.List
import Mathlib.Algebra.Order.Floor.Ring
import Mathlib.Data.List.Nodup

/-! # Largest-remainder apportionment

Every key receives the floor of its exact share, and the keys with the largest
remainders receive one unit more until the total is spent. The shares add up to the
total and stay within one unit of the exact shares.
-/

namespace LargestRemainder

variable {κ K : Type*} [Field K] [LinearOrder K] [IsStrictOrderedRing K] [FloorRing K]

/-- What the floors leave of the total. -/
def units (raw : κ → K) (ranked : List κ) (total : ℤ) : ℤ :=
  total - (ranked.map fun k => ⌊raw k⌋).sum

/-- The floor of the share, and one unit for the keys that are ranked first. -/
def apportion [DecidableEq κ] (raw : κ → K) (ranked : List κ) (total : ℤ) (k : κ) : ℤ :=
  ⌊raw k⌋ + if k ∈ ranked.take (units raw ranked total).toNat then 1 else 0

variable {raw : κ → K} {ranked : List κ} {total : ℤ}

omit [IsStrictOrderedRing K] in
theorem sum_fract (h : (ranked.map raw).sum = total) :
    (ranked.map fun k => Int.fract (raw k)).sum = units raw ranked total := by
  have hsplit : (ranked.map raw).sum =
      (ranked.map fun k => (⌊raw k⌋ : K)).sum + (ranked.map fun k => Int.fract (raw k)).sum := by
    rw [← List.sum_map_add]
    exact congrArg List.sum (List.map_congr_left fun k _ => (Int.floor_add_fract (raw k)).symm)
  have hcast : (ranked.map fun k => (⌊raw k⌋ : K)).sum =
      ((ranked.map fun k => ⌊raw k⌋).sum : ℤ) := by
    rw [Int.cast_list_sum, List.map_map]
    rfl
  rw [units, Int.cast_sub, ← h, hsplit, hcast, add_sub_cancel_left]

theorem units_nonneg (h : (ranked.map raw).sum = total) : 0 ≤ units raw ranked total := by
  have : (0 : K) ≤ units raw ranked total := by
    rw [← sum_fract h]
    refine List.sum_nonneg fun x hx => ?_
    obtain ⟨k, _, rfl⟩ := List.mem_map.mp hx
    exact Int.fract_nonneg _
  exact_mod_cast this

theorem sum_fract_le_length : (ranked.map fun k => Int.fract (raw k)).sum ≤ ranked.length := by
  induction ranked with
  | nil => simp
  | cons k l ih =>
    rw [List.map_cons, List.sum_cons, List.length_cons, Nat.cast_succ, add_comm]
    exact add_le_add ih (Int.fract_lt_one _).le

theorem units_le_length (h : (ranked.map raw).sum = total) :
    units raw ranked total ≤ ranked.length := by
  have : (units raw ranked total : K) ≤ ranked.length := sum_fract h ▸ sum_fract_le_length
  exact_mod_cast this

/-- The keys that receive a unit have a remainder. -/
theorem fract_pos_of_mem_take
    (hs : ranked.Pairwise fun j k => Int.fract (raw k) ≤ Int.fract (raw j)) {n : ℕ}
    (h : (n : K) ≤ (ranked.map fun k => Int.fract (raw k)).sum) {k : κ}
    (hk : k ∈ ranked.take n) : 0 < Int.fract (raw k) := by
  induction ranked generalizing n with
  | nil => simp at hk
  | cons j l ih =>
    cases n with
    | zero => simp at hk
    | succ n =>
      rw [List.map_cons, List.sum_cons, Nat.cast_succ] at h
      have hj : 0 < Int.fract (raw j) := by
        by_contra hj
        have hj : Int.fract (raw j) = 0 := le_antisymm (not_lt.mp hj) (Int.fract_nonneg _)
        have hzero : (l.map fun k => Int.fract (raw k)).sum ≤ (l.map fun _ => (0 : K)).sum :=
          List.sum_le_sum fun k hk => hj ▸ List.rel_of_pairwise_cons hs hk
        rw [List.map_const', List.sum_replicate, nsmul_zero] at hzero
        have hn : (0 : K) ≤ n := Nat.cast_nonneg n
        linarith
      rcases List.mem_cons.mp (List.take_succ_cons ▸ hk) with rfl | hk
      · exact hj
      · refine ih hs.of_cons ?_ hk
        have := Int.fract_lt_one (raw j)
        linarith

variable [DecidableEq κ]

theorem abs_apportion_sub_lt_one (h : (ranked.map raw).sum = total)
    (hs : ranked.Pairwise fun j k => Int.fract (raw k) ≤ Int.fract (raw j)) (k : κ) :
    |(apportion raw ranked total k : K) - raw k| < 1 := by
  have hfloor := Int.floor_add_fract (raw k)
  have hlt := Int.fract_lt_one (raw k)
  rw [apportion]
  split
  · rename_i hk
    have hn : (((units raw ranked total).toNat : ℕ) : K) = units raw ranked total := by
      exact_mod_cast Int.toNat_of_nonneg (units_nonneg h)
    have hpos := fract_pos_of_mem_take hs ((sum_fract h ▸ hn).le) hk
    rw [abs_lt]
    push_cast
    constructor <;> linarith
  · have hnonneg := Int.fract_nonneg (raw k)
    rw [abs_lt]
    push_cast
    constructor <;> linarith

omit [IsStrictOrderedRing K] in
theorem apportion_nonneg {k : κ} (h : 0 ≤ raw k) : 0 ≤ apportion raw ranked total k := by
  have := Int.floor_nonneg.mpr h
  rw [apportion]
  split <;> omega

theorem sum_mem_take (hn : ranked.Nodup) (n : ℕ) :
    (ranked.map fun k => if k ∈ ranked.take n then (1 : ℤ) else 0).sum =
      (ranked.take n).length := by
  conv_lhs => rw [← List.take_append_drop n ranked, List.map_append, List.sum_append]
  rw [List.take_append_drop]
  have htake : (ranked.take n).map (fun k => if k ∈ ranked.take n then (1 : ℤ) else 0) =
      (ranked.take n).map fun _ => 1 := List.map_congr_left fun k hk => if_pos hk
  have hdrop : (ranked.drop n).map (fun k => if k ∈ ranked.take n then (1 : ℤ) else 0) =
      (ranked.drop n).map fun _ => 0 :=
    List.map_congr_left fun k hk => if_neg fun h => List.disjoint_take_drop hn le_rfl h hk
  rw [htake, hdrop]
  simp

theorem sum_apportion (hn : ranked.Nodup) (h : (ranked.map raw).sum = total) :
    (ranked.map (apportion raw ranked total)).sum = total := by
  have hlen : ((ranked.take (units raw ranked total).toNat).length : ℤ) =
      units raw ranked total := by
    have h0 := units_nonneg h
    have hl := units_le_length h
    rw [List.length_take]
    omega
  have hsum := sum_mem_take hn (units raw ranked total).toNat
  rw [show apportion raw ranked total = fun k => ⌊raw k⌋ + if k ∈ ranked.take
    (units raw ranked total).toNat then (1 : ℤ) else 0 from rfl, List.sum_map_add, hsum, hlen,
    units, add_sub_cancel]

end LargestRemainder
