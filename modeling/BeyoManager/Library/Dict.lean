import Mathlib.Algebra.BigOperators.Group.List.Basic
import Mathlib.Data.List.Nodup
import Mathlib.Tactic.Abel

/-! # Dictionaries in insertion order

A dictionary is a list of entries; writing a key that is present keeps its place.
A dictionary that is built from entries with distinct keys is the list of these
entries.
-/

namespace Dict

variable {κ V α : Type*} [DecidableEq κ]

/-- `d[k] = v`. -/
def set (d : List (κ × V)) (k : κ) (v : V) : List (κ × V) :=
  if k ∈ d.map Prod.fst then d.map fun e => if e.1 = k then (k, v) else e else d ++ [(k, v)]

/-- `d.update(entries)`. -/
def update (d entries : List (κ × V)) : List (κ × V) :=
  entries.foldl (fun d e => set d e.1 e.2) d

def ofList (entries : List (κ × V)) : List (κ × V) := update [] entries

/-- `d[k]`, which fails with `e` when `k` is absent. -/
def getItem {ε : Type*} (e : κ → ε) (d : List (κ × V)) (k : κ) : Except ε V :=
  match d.find? fun x => x.1 = k with
  | some x => .ok x.2
  | none => .error (e k)

variable {d entries : List (κ × V)} {k : κ}

theorem set_of_notMem {v : V} (h : k ∉ d.map Prod.fst) : set d k v = d ++ [(k, v)] := if_neg h

theorem update_of_disjoint (hn : (entries.map Prod.fst).Nodup)
    (h : ∀ k ∈ entries.map Prod.fst, k ∉ d.map Prod.fst) : update d entries = d ++ entries := by
  induction entries generalizing d with
  | nil => simp [update]
  | cons e entries ih =>
    obtain ⟨he, hn⟩ := List.nodup_cons.mp (show (e.1 :: entries.map Prod.fst).Nodup from hn)
    rw [update, List.foldl_cons, set_of_notMem (h e.1 List.mem_cons_self)]
    rw [← update, ih hn, List.append_assoc]
    · rfl
    · intro k hk hd
      rcases List.mem_append.mp (List.map_append ▸ hd) with hd | hd
      · exact h k (List.mem_cons_of_mem _ hk) hd
      · exact he (by simpa [show k = e.1 by simpa using hd] using hk)

theorem ofList_eq_self (hn : (entries.map Prod.fst).Nodup) : ofList entries = entries := by
  rw [ofList, update_of_disjoint hn (by simp), List.nil_append]

theorem getItem_of_mem {ε : Type*} {e : κ → ε} (hn : (d.map Prod.fst).Nodup) {v : V}
    (h : (k, v) ∈ d) : getItem e d k = .ok v := by
  rw [getItem]
  cases hf : d.find? fun x => x.1 = k with
  | none => simpa using List.find?_eq_none.mp hf _ h
  | some x =>
    have hx : x.1 = k := by simpa using List.find?_some hf
    have : x = (k, v) := List.inj_on_of_nodup_map hn (List.mem_of_find?_eq_some hf) h hx
    rw [this]

theorem getItem_map {ε : Type*} (e : κ → ε) {l : List α} {key : α → κ} (val : α → V)
    (hn : (l.map key).Nodup) {x : α} (hx : x ∈ l) :
    getItem e (l.map fun x => (key x, val x)) (key x) = .ok (val x) := by
  refine getItem_of_mem ?_ (List.mem_map.mpr ⟨x, hx, rfl⟩)
  rwa [List.map_map]

theorem getItem_map_keys {ε : Type*} (e : κ → ε) {keys : List κ} (val : κ → V) (hk : k ∈ keys) :
    getItem e (keys.map fun k => (k, val k)) k = .ok (val k) := by
  have hfind : (keys.map fun k => (k, val k)).find? (fun x => x.1 = k) = some (k, val k) := by
    induction keys with
    | nil => simp at hk
    | cons key keys ih =>
      by_cases h : key = k
      · simp [h]
      · simpa [List.find?_cons, h] using ih (by simpa [Ne.symm h] using hk)
  rw [getItem, hfind]

/-- Writing one key leaves the values of the others. -/
theorem getItem_set_of_ne {ε : Type*} {e : κ → ε} {k' : κ} {v : V} (h : k' ≠ k) :
    getItem e (set d k v) k' = getItem e d k' := by
  have hfind : (set d k v).find? (fun x => x.1 = k') = d.find? fun x => x.1 = k' := by
    unfold set
    split
    · induction d with
      | nil => rfl
      | cons x d ih =>
        have ih : (d.map fun e => if e.1 = k then (k, v) else e).find? (fun x => x.1 = k') =
            d.find? fun x => x.1 = k' := by
          by_cases hd : k ∈ d.map Prod.fst
          · exact ih hd
          · congr 1
            conv_rhs => rw [← List.map_id d]
            refine List.map_congr_left fun y hy => if_neg fun hyk => hd ?_
            exact hyk ▸ List.mem_map_of_mem hy
        by_cases hx : x.1 = k
        · simp [hx, Ne.symm h, ih]
        · simp [List.find?_cons, hx, ih]
    · simp [List.find?_append, Ne.symm h]
  rw [getItem, getItem, hfind]

theorem getItem_map_eq_ok {ε : Type*} {e : κ → ε} {l : List α} {key : α → κ} {val : α → V} {v : V}
    (h : getItem e (l.map fun x => (key x, val x)) k = .ok v) : ∃ x ∈ l, key x = k ∧ val x = v := by
  rw [getItem] at h
  split at h
  · rename_i y hy
    obtain ⟨x, hx, rfl⟩ := List.mem_map.mp (List.mem_of_find?_eq_some hy)
    exact ⟨x, hx, by simpa using List.find?_some hy, by simpa using h⟩
  · simp at h

theorem set_map {l : List α} (key : α → κ) (val : α → V) {x : α} (hx : x ∈ l) (v : V) :
    set (l.map fun x => (key x, val x)) (key x) v =
      l.map fun y => (key y, if key y = key x then v else val y) := by
  have hmem : key x ∈ (l.map fun x => (key x, val x)).map Prod.fst := by
    rw [List.map_map]
    exact List.mem_map.mpr ⟨x, hx, rfl⟩
  rw [set, if_pos hmem, List.map_map]
  refine List.map_congr_left fun y _ => ?_
  by_cases h : key y = key x <;> simp [h]

/-- Updating entries under some of their keys. -/
theorem update_map {l : List α} (key : α → κ) (val : α → V) {entries : List (κ × V)}
    (hn : (entries.map Prod.fst).Nodup) (hsub : entries.map Prod.fst ⊆ l.map key) :
    update (l.map fun x => (key x, val x)) entries =
      l.map fun x => (key x, ((entries.find? fun e => e.1 = key x).map Prod.snd).getD (val x)) := by
  induction entries generalizing val with
  | nil => simp [update]
  | cons e entries ih =>
    obtain ⟨he, hn⟩ := List.nodup_cons.mp (show (e.1 :: entries.map Prod.fst).Nodup from hn)
    obtain ⟨x, hx, hxe⟩ := List.mem_map.mp (hsub (by simp : e.1 ∈ _))
    rw [update, List.foldl_cons, ← update, ← hxe, set_map key val hx,
      ih (fun y => if key y = key x then e.2 else val y) hn
        fun k hk => hsub (List.mem_cons_of_mem _ hk)]
    refine List.map_congr_left fun y _ => ?_
    by_cases hy : key y = key x
    · have hnone : entries.find? (fun e => e.1 = key y) = none := by
        refine List.find?_eq_none.mpr fun e' he' h => he ?_
        rw [← hxe, ← hy]
        exact List.mem_map.mpr ⟨e', he', by simpa using h⟩
      rw [hnone, List.find?_cons_of_pos (by simp [← hxe, hy])]
      simp [hy]
    · rw [List.find?_cons_of_neg (by simp [← hxe, Ne.symm hy])]
      simp [hy]

theorem nodup_keys_set (hn : (d.map Prod.fst).Nodup) (v : V) :
    ((set d k v).map Prod.fst).Nodup := by
  unfold set
  split
  · have hkeys : (d.map fun e => if e.1 = k then (k, v) else e).map Prod.fst = d.map Prod.fst := by
      rw [List.map_map]
      refine List.map_congr_left fun e _ => ?_
      by_cases h : e.1 = k <;> simp [h]
    rwa [hkeys]
  · rename_i hk
    rw [List.map_append, List.nodup_append]
    refine ⟨hn, List.nodup_singleton k, fun a ha b hb => ?_⟩
    obtain rfl : k = b := by simpa [eq_comm] using hb
    exact fun he => hk (he ▸ ha)

/-- Writing a key changes the sum of the values by the difference. -/
theorem sum_set [AddCommGroup V] (hn : (d.map Prod.fst).Nodup) (v : V) :
    ((set d k v).map Prod.snd).sum =
      (d.map Prod.snd).sum + (v - ((d.find? fun x => x.1 = k).map Prod.snd).getD 0) := by
  unfold set
  split
  · rename_i hk
    induction d with
    | nil => simp at hk
    | cons e d ih =>
      obtain ⟨he, hn⟩ := List.nodup_cons.mp (show (e.1 :: d.map Prod.fst).Nodup from hn)
      by_cases hek : e.1 = k
      · have hrest : (d.map fun e => if e.1 = k then (k, v) else e) = d := by
          conv_rhs => rw [← List.map_id d]
          refine List.map_congr_left fun y hy => if_neg fun hyk => he ?_
          exact (hek.trans hyk.symm) ▸ List.mem_map_of_mem hy
        rw [List.map_cons, if_pos hek, hrest, List.find?_cons_of_pos (by simpa using hek)]
        simp only [List.map_cons, List.sum_cons, Option.map_some, Option.getD_some]
        abel
      · have hk : k ∈ d.map Prod.fst := (List.mem_cons.mp hk).resolve_left fun h => hek h.symm
        rw [List.map_cons, if_neg hek, List.find?_cons_of_neg (by simpa using hek), List.map_cons,
          List.sum_cons, ih hn hk, List.map_cons, List.sum_cons, add_assoc]
  · rename_i hk
    have hnone : d.find? (fun x => x.1 = k) = none :=
      List.find?_eq_none.mpr fun x hx h => hk (List.mem_map.mpr ⟨x, hx, by simpa using h⟩)
    rw [hnone]
    simp

section FirstOf

/-- `d.setdefault(k, v)`: a key that is present keeps its value. -/
def setDefault (d : List (κ × V)) (k : κ) (v : V) : List (κ × V) :=
  if k ∈ d.map Prod.fst then d else d ++ [(k, v)]

/-- The dictionary of a loop that skips the keys it has seen. -/
def firstOf (key : α → κ) (val : α → V) (l : List α) : List (κ × V) :=
  l.foldl (fun d x => setDefault d (key x) (val x)) []

theorem find?_setDefault (d : List (κ × V)) (k k' : κ) (v : V) :
    (setDefault d k v).find? (fun e => e.1 = k') =
      (d.find? fun e => e.1 = k').or (if k = k' then some (k, v) else none) := by
  unfold setDefault
  split
  · rename_i hk
    split
    · rename_i he
      subst he
      obtain ⟨e, he, hek⟩ := List.mem_map.mp hk
      have hsome : (d.find? fun e => e.1 = k).isSome := by
        rw [List.find?_isSome]
        exact ⟨e, he, by simpa using hek⟩
      rw [Option.or_of_isSome hsome]
    · rw [Option.or_none]
  · rw [List.find?_append]
    congr 1
    by_cases h : k = k' <;> simp [h]

theorem find?_firstOf (key : α → κ) (val : α → V) (l : List α) (k : κ) :
    (firstOf key val l).find? (fun e => e.1 = k) =
      (l.find? fun x => key x = k).map fun x => (key x, val x) := by
  have hfold : ∀ d : List (κ × V),
      (l.foldl (fun d x => setDefault d (key x) (val x)) d).find? (fun e => e.1 = k) =
        (d.find? fun e => e.1 = k).or
          ((l.find? fun x => key x = k).map fun x => (key x, val x)) := by
    induction l with
    | nil =>
      intro d
      simp
    | cons x l ih =>
      intro d
      rw [List.foldl_cons, ih, find?_setDefault, Option.or_assoc]
      congr 1
      by_cases h : key x = k <;> simp [h]
  rw [firstOf, hfold, List.find?_nil, Option.none_or]

end FirstOf

end Dict
