import Mathlib.Data.List.Basic

/-! # Transactions and runs

A command maps a state to a new state or fails; a failed command is rolled back.
A run executes a list of commands one after the other. What one command keeps,
every run keeps; what one pass of a loop keeps, the loop keeps.
-/

namespace Transition

universe u

theorem bind_eq_ok {ε : Type*} {α β : Type u} {x : Except ε α} {f : α → Except ε β} {b : β} :
    x >>= f = .ok b ↔ ∃ a, x = .ok a ∧ f a = .ok b := by
  cases x <;> simp [bind, Except.bind]

theorem bind_eq_error {ε : Type*} {α β : Type u} {x : Except ε α} {f : α → Except ε β} {e : ε} :
    x >>= f = .error e ↔ x = .error e ∨ ∃ a, x = .ok a ∧ f a = .error e := by
  cases x <;> simp [bind, Except.bind]

/-- Fail with `e` when `p` holds. -/
def throwIf {ε : Type*} (p : Prop) [Decidable p] (e : ε) : Except ε Unit :=
  if p then .error e else .ok ()

theorem throwIf_bind_eq_ok {ε β : Type} {p : Prop} [Decidable p] {e : ε}
    {f : Unit → Except ε β} {b : β} :
    throwIf p e >>= f = .ok b ↔ ¬ p ∧ f () = .ok b := by
  by_cases h : p <;> simp [throwIf, h, bind, Except.bind]

theorem throwIf_bind_eq_error {ε β : Type} {p : Prop} [Decidable p] {e e' : ε}
    {f : Unit → Except ε β} :
    throwIf p e >>= f = .error e' ↔ p ∧ e = e' ∨ ¬ p ∧ f () = .error e' := by
  by_cases h : p <;> simp [throwIf, h, bind, Except.bind]

theorem throwIf_eq_ok {ε : Type*} {p : Prop} [Decidable p] {e : ε} {u : Unit} :
    throwIf p e = .ok u ↔ ¬ p := by
  by_cases h : p <;> simp [throwIf, h]

def getOr {ε α : Type*} (e : ε) (x : Option α) : Except ε α :=
  match x with
  | some a => .ok a
  | none => .error e

theorem getOr_eq_ok {ε α : Type*} {e : ε} {x : Option α} {a : α} :
    getOr e x = .ok a ↔ x = some a := by
  cases x <;> simp [getOr]

theorem mapM_eq_ok {ε : Type*} {α : Type*} {β : Type u} {f : α → Except ε β} {g : α → β}
    {l : List α} (h : ∀ x ∈ l, f x = .ok (g x)) : l.mapM f = .ok (l.map g) := by
  induction l with
  | nil => rfl
  | cons x l ih =>
    rw [List.mapM_cons, h x List.mem_cons_self, ih fun y hy => h y (List.mem_cons_of_mem x hy)]
    rfl

/-- What each pass of a collecting loop establishes, the loop establishes of its results. -/
theorem mapM_exists {ε : Type*} {α : Type*} {β : Type u} [Nonempty β] {f : α → Except ε β}
    {P : α → β → Prop} {l : List α} (h : ∀ x ∈ l, ∃ y, f x = .ok y ∧ P x y) :
    ∃ g : α → β, l.mapM f = .ok (l.map g) ∧ ∀ x ∈ l, P x (g x) := by
  have hall : ∀ x, ∃ y, x ∈ l → f x = .ok y ∧ P x y := by
    intro x
    by_cases hx : x ∈ l
    · obtain ⟨y, hy⟩ := h x hx
      exact ⟨y, fun _ => hy⟩
    · exact ⟨Classical.choice inferInstance, fun hx' => absurd hx' hx⟩
  choose g hg using hall
  exact ⟨g, mapM_eq_ok fun x hx => (hg x hx).1, fun x hx => (hg x hx).2⟩

theorem mapM_forall₂ {ε : Type*} {α : Type*} {β : Type u} {f : α → Except ε β} {l : List α}
    {l' : List β} (h : l.mapM f = .ok l') : List.Forall₂ (fun x y => f x = .ok y) l l' := by
  induction l generalizing l' with
  | nil =>
    obtain rfl : [] = l' := by simpa [pure, Except.pure] using h
    exact .nil
  | cons x l ih =>
    rw [List.mapM_cons, bind_eq_ok] at h
    obtain ⟨y, hy, h⟩ := h
    obtain ⟨ys, hys, h⟩ := bind_eq_ok.mp h
    obtain rfl : y :: ys = l' := by simpa [pure, Except.pure] using h
    exact .cons hy (ih hys)

theorem map_of_mapM_eq_ok {ε : Type*} {α γ : Type*} {β : Type u} {f : α → Except ε β}
    {p : β → γ} {q : α → γ} {l : List α} {l' : List β} (h : l.mapM f = .ok l')
    (hpq : ∀ x ∈ l, ∀ y, f x = .ok y → p y = q x) : l'.map p = l.map q := by
  have hall := mapM_forall₂ h
  clear h
  induction hall with
  | nil => rfl
  | cons hxy _ ih =>
    rw [List.map_cons, List.map_cons, hpq _ List.mem_cons_self _ hxy,
      ih fun x hx => hpq x (List.mem_cons_of_mem _ hx)]

theorem mapM_mem {ε : Type*} {α : Type*} {β : Type u} {f : α → Except ε β} {l : List α}
    {l' : List β} (h : l.mapM f = .ok l') : ∀ y ∈ l', ∃ x ∈ l, f x = .ok y := by
  have hall := mapM_forall₂ h
  clear h
  induction hall with
  | nil => simp
  | cons hxy _ ih =>
    intro y hy
    rcases List.mem_cons.mp hy with rfl | hy
    · exact ⟨_, List.mem_cons_self, hxy⟩
    · obtain ⟨x, hx, hf⟩ := ih y hy
      exact ⟨x, List.mem_cons_of_mem _ hx, hf⟩

theorem mapM_result {ε : Type*} {α : Type*} {β : Type u} {f : α → Except ε β} {l : List α}
    {l' : List β} (h : l.mapM f = .ok l') : ∀ x ∈ l, ∃ y ∈ l', f x = .ok y := by
  have hall := mapM_forall₂ h
  clear h
  induction hall with
  | nil => simp
  | cons hxy _ ih =>
    intro x hx
    rcases List.mem_cons.mp hx with rfl | hx
    · exact ⟨_, List.mem_cons_self, hxy⟩
    · obtain ⟨y, hy, hf⟩ := ih x hx
      exact ⟨y, List.mem_cons_of_mem _ hy, hf⟩

/-- A collecting loop whose passes succeed wherever those of another do, with results that
look the same, succeeds wherever the other does. -/
theorem mapM_simulate {ε : Type*} {α γ : Type*} {β : Type u} {f : α → Except ε β} {l : List α}
    {ys : List β} (k : β → γ) (f' : α → Except ε β) (h : l.mapM f = .ok ys)
    (hsim : ∀ x ∈ l, ∀ y ∈ ys, f x = .ok y → ∃ y', f' x = .ok y' ∧ k y' = k y) :
    ∃ ys', l.mapM f' = .ok ys' ∧ ys'.map k = ys.map k := by
  have hall := mapM_forall₂ h
  clear h
  induction hall with
  | nil => exact ⟨[], rfl, rfl⟩
  | @cons x y l ys hxy _ ih =>
    obtain ⟨y', hy', hk⟩ := hsim x List.mem_cons_self y List.mem_cons_self hxy
    obtain ⟨ys', hys', hks⟩ := ih fun a ha b hb =>
      hsim a (List.mem_cons_of_mem x ha) b (List.mem_cons_of_mem y hb)
    refine ⟨y' :: ys', ?_, by rw [List.map_cons, List.map_cons, hk, hks]⟩
    rw [List.mapM_cons, hy', hys']
    rfl

theorem mapM_map_ok {ε : Type*} {α : Type*} {β γ : Type u} {f : α → Except ε β} {k : β → γ}
    {l : List α} : (l.mapM fun x => (f x).map k) = (l.mapM f).map (List.map k) := by
  induction l with
  | nil => rfl
  | cons x l ih =>
    rw [List.mapM_cons, List.mapM_cons, ih]
    cases f x <;> cases l.mapM f <;> rfl

section Run

variable {σ ι ε : Type*}

/-- Execute one command atomically; a failure leaves the state as it was. -/
def commit (step : σ → ι → Except ε σ) (s : σ) (i : ι) : σ :=
  match step s i with
  | .ok s' => s'
  | .error _ => s

/-- Execute a list of commands one after the other. -/
def run (step : σ → ι → Except ε σ) (s : σ) (is : List ι) : σ :=
  is.foldl (commit step) s

variable {step : σ → ι → Except ε σ}

@[simp] theorem run_nil (s : σ) : run step s [] = s := rfl

@[simp] theorem run_cons (s : σ) (i : ι) (is : List ι) :
    run step s (i :: is) = run step (commit step s i) is := rfl

@[simp] theorem run_append (s : σ) (is js : List ι) :
    run step s (is ++ js) = run step (run step s is) js := by
  simp [run]

theorem commit_cases (s : σ) (i : ι) :
    step s i = .ok (commit step s i) ∨ commit step s i = s := by
  unfold commit
  split
  · rename_i h; exact .inl h
  · exact .inr rfl

theorem commit_invariant (I : σ → Prop) (h : ∀ s i s', I s → step s i = .ok s' → I s')
    {s : σ} (hs : I s) (i : ι) : I (commit step s i) := by
  rcases @commit_cases _ _ _ step s i with hi | hi
  · exact h s i _ hs hi
  · rwa [hi]

theorem run_invariant (I : σ → Prop) (h : ∀ s i s', I s → step s i = .ok s' → I s')
    {s : σ} (hs : I s) (is : List ι) : I (run step s is) := by
  induction is generalizing s with
  | nil => exact hs
  | cons i is ih => exact ih (commit_invariant I h hs i)

/-- Every command of a run that succeeds meets a condition on the state that it finds. -/
def Meets (step : σ → ι → Except ε σ) (cond : σ → ι → Prop) : σ → List ι → Prop
  | _, [] => True
  | s, i :: is =>
    ((∃ s', step s i = .ok s') → cond s i) ∧ Meets step cond (commit step s i) is

variable {cond : σ → ι → Prop}

instance decidableMeets [∀ s i, Decidable (cond s i)] :
    (s : σ) → (is : List ι) → Decidable (Meets step cond s is)
  | _, [] => .isTrue trivial
  | s, i :: is =>
    have : Decidable ((∃ s', step s i = .ok s') → cond s i) :=
      match step s i with
      | .ok s' => decidable_of_iff (cond s i) ⟨fun hc _ => hc, fun hc => hc ⟨s', rfl⟩⟩
      | .error _ => .isTrue nofun
    have := decidableMeets (commit step s i) is
    inferInstanceAs (Decidable (_ ∧ _))

theorem Meets.of_append {s : σ} {is js : List ι} (h : Meets step cond s (is ++ js)) :
    Meets step cond s is := by
  induction is generalizing s with
  | nil => trivial
  | cons i is ih => exact ⟨h.1, ih h.2⟩

theorem Meets.append {s : σ} {is js : List ι} (h : Meets step cond s (is ++ js)) :
    Meets step cond (run step s is) js := by
  induction is generalizing s with
  | nil => exact h
  | cons i is ih => exact ih h.2

/-- A property kept by every successful command that meets the condition holds after every run
that meets it. -/
theorem Meets.invariant (I : σ → Prop)
    (h : ∀ s i s', I s → cond s i → step s i = .ok s' → I s') {s : σ} (hs : I s) {is : List ι}
    (hm : Meets step cond s is) : I (run step s is) := by
  induction is generalizing s with
  | nil => exact hs
  | cons i is ih =>
    refine ih ?_ hm.2
    rcases @commit_cases _ _ _ step s i with hi | hi
    · exact h s i _ hs (hm.1 ⟨_, hi⟩) hi
    · rwa [hi]

theorem meets_iff {s : σ} {is : List ι} : Meets step cond s is ↔ ∀ js i ks s', is = js ++ i :: ks →
    step (run step s js) i = .ok s' → cond (run step s js) i := by
  induction is generalizing s with
  | nil =>
    refine ⟨fun _ js i ks _ h => ?_, fun _ => trivial⟩
    cases (List.append_eq_nil_iff.mp h.symm).2
  | cons i is ih =>
    constructor
    · rintro ⟨hi, hrest⟩ js j ks s' hjs hok
      cases js with
      | nil =>
        obtain ⟨rfl, -⟩ := List.cons_eq_cons.mp hjs
        exact hi ⟨s', hok⟩
      | cons j' js =>
        obtain ⟨rfl, his⟩ := List.cons_eq_cons.mp hjs
        exact ih.mp hrest js j ks s' his hok
    · intro h
      refine ⟨fun ⟨s', hok⟩ => h [] i is s' rfl hok, ih.mpr fun js j ks s' his hok => ?_⟩
      exact h (i :: js) j ks s' (congrArg (i :: ·) his) hok

/-- Where each successful command keeps a property if and only if it meets a condition, the property
holds in every state of a run if and only if the run meets the condition. -/
theorem forall_reached_iff (I : σ → Prop)
    (h : ∀ s i s', I s → step s i = .ok s' → (I s' ↔ cond s i)) {s : σ} (hs : I s) {is : List ι} :
    (∀ js ks, is = js ++ ks → I (run step s js)) ↔ Meets step cond s is := by
  induction is generalizing s with
  | nil =>
    refine ⟨fun _ => trivial, fun _ js ks hjs => ?_⟩
    obtain ⟨rfl, -⟩ := List.append_eq_nil_iff.mp hjs.symm
    exact hs
  | cons i is ih =>
    constructor
    · intro hall
      have hi : I (commit step s i) := hall [i] is rfl
      refine ⟨?_, (ih hi).mp fun js ks hjs => hall (i :: js) ks (by rw [hjs]; rfl)⟩
      rintro ⟨s', hs'⟩
      refine (h s i s' hs hs').mp ?_
      rw [commit, hs'] at hi
      exact hi
    · rintro ⟨hi, hrest⟩ js ks hjs
      cases js with
      | nil => exact hs
      | cons j js =>
        obtain ⟨rfl, his⟩ := List.cons_eq_cons.mp hjs
        refine (ih ?_).mpr hrest js ks his
        rcases @commit_cases _ _ _ step s i with hc | hc
        · exact (h s i _ hs hc).mpr (hi ⟨_, hc⟩)
        · rwa [hc]

end Run

section Loop

variable {σ : Type u} {ε β : Type*} {f : σ → β → Except ε σ}

theorem foldlM_cons_eq_ok {s s' : σ} {b : β} {l : List β} :
    (b :: l).foldlM f s = .ok s' ↔ ∃ t, f s b = .ok t ∧ l.foldlM f t = .ok s' := by
  rw [List.foldlM_cons, bind_eq_ok]

theorem foldlM_loop (I : List β → σ → Prop)
    (h : ∀ b l s s', I (b :: l) s → f s b = .ok s' → I l s') {l : List β} {s s' : σ}
    (hs : I l s) (hf : l.foldlM f s = .ok s') : I [] s' := by
  induction l generalizing s with
  | nil =>
    obtain rfl : s = s' := by simpa [pure, Except.pure] using hf
    exact hs
  | cons b l ih =>
    obtain ⟨t, ht, hf⟩ := foldlM_cons_eq_ok.mp hf
    exact ih (h b l s t hs ht) hf

/-- A loop fails when one of its passes does, in a state that meets the invariant. -/
theorem foldlM_eq_error (I : List β → σ → Prop)
    (h : ∀ b l s s', I (b :: l) s → f s b = .ok s' → I l s') {l : List β} {s : σ} {e : ε}
    (hs : I l s) (hf : l.foldlM f s = .error e) :
    ∃ b rest t, I (b :: rest) t ∧ f t b = .error e := by
  induction l generalizing s with
  | nil => simp [pure, Except.pure] at hf
  | cons b l ih =>
    rw [List.foldlM_cons] at hf
    rcases bind_eq_error.mp hf with hb | ⟨t, ht, hf⟩
    · exact ⟨b, l, s, hs, hb⟩
    · exact ih (h b l s t hs ht) hf

theorem foldlM_invariant (I : σ → Prop) {l : List β}
    (h : ∀ s, ∀ b ∈ l, ∀ s', I s → f s b = .ok s' → I s') {s s' : σ} (hs : I s)
    (hf : l.foldlM f s = .ok s') : I s' := by
  refine (foldlM_loop (fun rest t => rest ⊆ l ∧ I t) ?_ ⟨List.Subset.refl l, hs⟩ hf).2
  rintro b rest t t' ⟨hr, ht⟩ hb
  exact ⟨fun c hc => hr (List.mem_cons_of_mem b hc), h t b (hr List.mem_cons_self) t' ht hb⟩

end Loop

end Transition
