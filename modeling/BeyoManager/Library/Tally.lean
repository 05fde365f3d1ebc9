import Mathlib.Algebra.BigOperators.Group.List.Basic
import Mathlib.Data.List.AList

/-! # Accumulating dictionaries

A dictionary of totals grows by credits. What a key holds in the end is the sum of
the credits that name it, in any order; a key that no credit names is not touched.
-/

namespace Tally

variable {κ M : Type*}

abbrev Totals (κ M : Type*) := AList fun _ : κ => M

/-- The amounts that a list of credits gives to one key. -/
def creditsOf [DecidableEq κ] (k : κ) (credits : List (κ × M)) : List M :=
  (credits.filter fun c => c.1 = k).map Prod.snd

section Credits

variable [DecidableEq κ] {k : κ} {credits credits' : List (κ × M)}

@[simp] theorem creditsOf_nil : creditsOf k ([] : List (κ × M)) = [] := rfl

@[simp] theorem creditsOf_append :
    creditsOf k (credits ++ credits') = creditsOf k credits ++ creditsOf k credits' := by
  simp [creditsOf]

theorem creditsOf_cons (c : κ × M) :
    creditsOf k (c :: credits) =
      if c.1 = k then c.2 :: creditsOf k credits else creditsOf k credits := by
  by_cases h : c.1 = k <;> simp [creditsOf, h]

theorem creditsOf_eq_nil : creditsOf k credits = [] ↔ ∀ c ∈ credits, c.1 ≠ k := by
  simp [creditsOf, List.filter_eq_nil_iff]

theorem creditsOf_perm (h : credits.Perm credits') :
    (creditsOf k credits).Perm (creditsOf k credits') :=
  (h.filter _).map _

theorem creditsOf_flatMap {β : Type*} (l : List β) (f : β → List (κ × M)) :
    creditsOf k (l.flatMap f) = l.flatMap fun b => creditsOf k (f b) := by
  induction l with
  | nil => rfl
  | cons b l ih => simp [ih]

end Credits

variable [DecidableEq κ] [AddCommMonoid M]

/-- What a key holds; a key that is absent holds nothing. -/
def amount (d : Totals κ M) (k : κ) : M := (d.lookup k).getD 0

def addTo (d : Totals κ M) (k : κ) (x : M) : Totals κ M :=
  d.insert k (amount d k + x)

/-- Add a list of credits, from the left. -/
def addAll (d : Totals κ M) (credits : List (κ × M)) : Totals κ M :=
  credits.foldl (fun d c => addTo d c.1 c.2) d

variable {d : Totals κ M} {k : κ} {credits credits' : List (κ × M)}

@[simp] theorem addAll_nil : addAll d [] = d := rfl

theorem addAll_append : addAll d (credits ++ credits') = addAll (addAll d credits) credits' :=
  List.foldl_append

/-- A key holds its credits on top of what it held; it is present once one names it. -/
theorem lookup_addAll :
    (addAll d credits).lookup k = if creditsOf k credits = [] then d.lookup k
      else some (amount d k + (creditsOf k credits).sum) := by
  induction credits generalizing d with
  | nil => simp
  | cons c credits ih =>
    rw [show addAll d (c :: credits) = addAll (addTo d c.1 c.2) credits from rfl, ih,
      creditsOf_cons]
    by_cases h : c.1 = k
    · subst h
      have ha : amount (addTo d c.1 c.2) c.1 = amount d c.1 + c.2 := by simp [amount, addTo]
      by_cases hn : creditsOf c.1 credits = []
      · simp [hn, addTo]
      · simp [hn, ha, add_assoc]
    · have hl : (addTo d c.1 c.2).lookup k = d.lookup k := AList.lookup_insert_ne (Ne.symm h)
      simp [h, hl, amount]

theorem lookup_addAll_empty :
    (addAll (∅ : Totals κ M) credits).lookup k = if creditsOf k credits = [] then none
      else some (creditsOf k credits).sum := by
  simp [lookup_addAll, amount]

theorem amount_addAll_empty :
    amount (addAll (∅ : Totals κ M) credits) k = (creditsOf k credits).sum := by
  rw [amount, lookup_addAll_empty]
  split <;> simp_all

theorem lookup_addAll_perm (h : (creditsOf k credits).Perm (creditsOf k credits')) :
    (addAll (∅ : Totals κ M) credits).lookup k = (addAll ∅ credits').lookup k := by
  have hn : creditsOf k credits = [] ↔ creditsOf k credits' = [] :=
    ⟨fun he => by simpa [he] using h, fun he => by simpa [he] using h⟩
  simp only [lookup_addAll_empty, hn, h.sum_eq]

end Tally
