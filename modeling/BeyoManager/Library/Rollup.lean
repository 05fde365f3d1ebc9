import Mathlib.Algebra.BigOperators.Group.List.Basic
import Mathlib.Algebra.Group.Pi.Basic
import Mathlib.Data.List.AList
import Mathlib.Tactic.Abel

/-! # Totals that follow by deltas

The records of a base table are written absolutely, and a table of totals over groups of them
follows by the differences. Between a write and its delta the totals owe the difference, so that
the order in which writes and deltas come is immaterial.
-/

namespace Rollup

variable {κ α V W M : Type*} [DecidableEq α] [AddCommGroup M]

abbrev Table (κ V : Type*) := AList fun _ : κ => V

/-- What a table holds under a key; a record that is missing holds nothing. -/
def valueAt [DecidableEq κ] (value : V → M) (t : Table κ V) (k : κ) : M :=
  ((t.lookup k).map value).getD 0

/-- The sum over the records of one group. -/
def groupTotal (value : V → M) (group : κ → α) (t : Table κ V) (a : α) : M :=
  (t.entries.map fun e => if group e.1 = a then value e.2 else 0).sum

/-- The totals over the groups of a base table, but for what they owe. -/
def Owes (value : V → M) (value' : W → M) (group : κ → α) (base : Table κ V) (totals : Table α W)
    (owed : α → M) : Prop :=
  ∀ a, valueAt value' totals a + owed a = groupTotal value group base a

variable {value : V → M} {value' : W → M} {group : κ → α} {base : Table κ V} {totals : Table α W}
  {owed : α → M} {k k' : κ} {v : V} {a : α} {w : W}

@[simp] theorem groupTotal_empty : groupTotal value group (∅ : Table κ V) a = 0 := rfl

section Base

variable [DecidableEq κ]

@[simp] theorem valueAt_empty : valueAt value (∅ : Table κ V) k = 0 := rfl

@[simp] theorem valueAt_insert_self : valueAt value (base.insert k v) k = value v := by
  simp [valueAt]

theorem valueAt_insert_of_ne (h : k' ≠ k) :
    valueAt value (base.insert k v) k' = valueAt value base k' := by
  simp [valueAt, h]

/-- Removing the record under a key takes its value out of the sum. -/
theorem groupTotal_erase (t : Table κ V) (k : κ) (a : α) :
    groupTotal value group t a =
      (if group k = a then valueAt value t k else 0) + groupTotal value group (t.erase k) a := by
  obtain ⟨entries, hnodup⟩ := t
  induction entries with
  | nil =>
    change (0 : M) = (if group k = a then 0 else 0) + 0
    rw [ite_self, add_zero]
  | cons e entries ih =>
    obtain ⟨k', v⟩ := e
    have hnodup' : entries.NodupKeys := (List.nodupKeys_cons.mp hnodup).2
    have ih := ih hnodup'
    by_cases hk : k = k'
    · subst hk
      have hlookup : (AList.mk (⟨k, v⟩ :: entries) hnodup).lookup k = some v :=
        List.dlookup_cons_eq entries k v
      have herase : ((AList.mk (⟨k, v⟩ :: entries) hnodup).erase k).entries = entries :=
        List.kerase_cons_eq rfl
      rw [groupTotal, groupTotal, herase, List.map_cons, List.sum_cons, valueAt, hlookup]
      rfl
    · have hlookup : (AList.mk (⟨k', v⟩ :: entries) hnodup).lookup k =
          (AList.mk entries hnodup').lookup k := List.dlookup_cons_ne entries ⟨k', v⟩ hk
      have herase : ((AList.mk (⟨k', v⟩ :: entries) hnodup).erase k).entries =
          ⟨k', v⟩ :: ((AList.mk entries hnodup').erase k).entries :=
        List.kerase_cons_ne hk
      rw [groupTotal, groupTotal, herase, List.map_cons, List.map_cons, List.sum_cons,
        List.sum_cons, valueAt, hlookup]
      change _ + groupTotal value group (AList.mk entries hnodup') a = _ + (_ +
        groupTotal value group ((AList.mk entries hnodup').erase k) a)
      rw [ih, valueAt]
      abel

theorem groupTotal_insert : groupTotal value group (base.insert k v) a =
    groupTotal value group base a + if group k = a then value v - valueAt value base k else 0 := by
  rw [groupTotal_erase base k a]
  change (if group k = a then value v else 0) + groupTotal value group (base.erase k) a = _
  by_cases h : group k = a
  · simp only [if_pos h]
    abel
  · simp only [if_neg h]
    abel

end Base

theorem owes_empty : Owes value value' group (∅ : Table κ V) (∅ : Table α W) 0 := by
  intro a
  simp

theorem Owes.set [DecidableEq κ] (h : Owes value value' group base totals owed) (k : κ) (v : V) :
    Owes value value' group (base.insert k v) totals
      (owed + Pi.single (group k) (value v - valueAt value base k)) := by
  intro a
  rw [groupTotal_insert, ← h a, Pi.add_apply, ← add_assoc]
  congr 1
  by_cases ha : group k = a
  · subst ha
    rw [Pi.single_eq_same, if_pos rfl]
  · rw [Pi.single_eq_of_ne (Ne.symm ha), if_neg ha]

theorem Owes.apply (h : Owes value value' group base totals owed) {delta : M}
    (hw : value' w = valueAt value' totals a + delta) :
    Owes value value' group base (totals.insert a w) (owed - Pi.single a delta) := by
  intro a'
  rw [← h a', Pi.sub_apply]
  by_cases ha : a' = a
  · subst ha
    rw [valueAt_insert_self, hw, Pi.single_eq_same]
    abel
  · rw [valueAt_insert_of_ne ha, Pi.single_eq_of_ne ha, sub_zero]

theorem Owes.valueAt_eq (h : Owes value value' group base totals 0) (a : α) :
    valueAt value' totals a = groupTotal value group base a := by
  rw [← h a, Pi.zero_apply, add_zero]

end Rollup
