import Mathlib.Data.List.Chain
import Mathlib.Order.Basic

/-! # Chains of intervals with an open end

A log of intervals in which each one is closed when the next one opens, and only the last
one is open. Closing the last interval and opening a new one at that instant extends the
chain.
-/

namespace OpenChain

variable {α τ : Type*} [Preorder τ] {entered : α → τ} {exited : α → Option τ}

/-- An interval ends where the next one begins, and no earlier than it began. -/
def Follows (entered : α → τ) (exited : α → Option τ) (a b : α) : Prop :=
  exited a = some (entered b) ∧ entered a ≤ entered b

/-- Closed intervals, each ending where the next one begins, and then an open one. -/
structure IsOpenChain (entered : α → τ) (exited : α → Option τ) (closed : List α) (last : α) :
    Prop where
  chain : (closed ++ [last]).IsChain (Follows entered exited)
  isOpen : exited last = none

variable {closed : List α} {last : α}

theorem IsOpenChain.single {a : α} (h : exited a = none) : IsOpenChain entered exited [] a :=
  ⟨.singleton a, h⟩

theorem IsOpenChain.isClosed (h : IsOpenChain entered exited closed last) :
    ∀ a ∈ closed, (exited a).isSome := by
  intro a ha
  obtain ⟨before, after, rfl⟩ := List.append_of_mem ha
  have hc := h.chain
  rw [List.append_assoc, List.cons_append] at hc
  have hc := (List.isChain_append.mp hc).2.1
  obtain ⟨b, rest, hb⟩ := List.exists_cons_of_ne_nil (List.append_ne_nil_of_right_ne_nil after
    (List.cons_ne_nil last []))
  rw [hb, List.isChain_cons_cons] at hc
  rw [hc.1.1, Option.isSome_some]

theorem IsOpenChain.ordered (h : IsOpenChain entered exited closed last) :
    (closed ++ [last]).Pairwise fun a b => entered a ≤ entered b := by
  have hle : (closed ++ [last]).IsChain fun a b => entered a ≤ entered b :=
    h.chain.imp fun _ _ hab => hab.2
  have : IsTrans α fun a b => entered a ≤ entered b := ⟨fun _ _ _ => le_trans⟩
  exact List.isChain_iff_pairwise.mp hle

theorem IsOpenChain.advance (h : IsOpenChain entered exited closed last) {last' new : α}
    (hentered : entered last' = entered last) (hexited : exited last' = some (entered new))
    (hle : entered last ≤ entered new) (hopen : exited new = none) :
    IsOpenChain entered exited (closed ++ [last']) new := by
  refine ⟨?_, hopen⟩
  obtain ⟨hclosed, -, hlast⟩ := List.isChain_append.mp h.chain
  rw [List.append_assoc, List.isChain_append]
  refine ⟨hclosed, ?_, fun a ha b hb => ?_⟩
  · exact List.isChain_pair.mpr ⟨hexited, hentered ▸ hle⟩
  · obtain rfl : last' = b := by simpa using hb
    have hab := hlast a ha last rfl
    exact ⟨hab.1.trans (congrArg some hentered.symm), hentered ▸ hab.2⟩

theorem IsOpenChain.map (h : IsOpenChain entered exited closed last) {f : α → α}
    (hentered : ∀ a, entered (f a) = entered a) (hexited : ∀ a, exited (f a) = exited a) :
    IsOpenChain entered exited (closed.map f) (f last) := by
  refine ⟨?_, by rw [hexited, h.isOpen]⟩
  have hmap : (closed.map f ++ [f last]) = (closed ++ [last]).map f := by simp
  rw [hmap, List.isChain_map]
  exact h.chain.imp fun a b hab => by rwa [Follows, hentered, hentered, hexited]

end OpenChain
