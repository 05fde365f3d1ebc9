import BeyoManager.Upholstery.CommandFrames

/-! # When an installation has nothing to complete

Completing a step in the installation section completes the requirements of the task's primary
item. Every requirement that it completes is one more that is completed, so the side effect leaves
the tables as they are exactly when there is no requirement to complete.
-/

namespace BeyoManager.Upholstery

open Relational Transition
open TaskSteps (TaskStepState)

variable {db db' : Db} {r : ItemUpholsteryRequirement} {taskId : ClientId}
  {sectionName : Option String}

def Db.completedCount (db : Db) : ℕ := db.requirements.countP fun r => r.state == .completed

/-- The completion of a step leaves no requirement to complete: the step is in another section,
the task has no primary item, or no fabric of that item is in use or available. -/
def Db.NothingToInstall (db : Db) (taskId : ClientId) (sectionName : Option String) : Prop :=
  (PyString.strip (sectionName.getD "")).toLower = upholsteryInstallationSectionName →
    ∀ primary ∈ db.taskItems.find? fun l => l.taskId == taskId && l.isPrimary && !l.isRemoved,
      ∀ u ∈ db.currentItemUpholsteries primary.itemId,
        db.ownRequirements u.clientId [.inUse, .available] = []

instance (db : Db) (taskId : ClientId) (sectionName : Option String) :
    Decidable (db.NothingToInstall taskId sectionName) :=
  inferInstanceAs (Decidable (_ → _))

theorem countP_completed_update (l : List ItemUpholsteryRequirement) (requirementId : ClientId) :
    l.countP (fun r => r.state == .completed) ≤
      (updateWhere (fun r => r.clientId == requirementId)
        (fun x : ItemUpholsteryRequirement => { x with state := .completed }) l).countP
          fun r => r.state == .completed := by
  rw [updateWhere, List.countP_map]
  apply List.countP_mono_left
  intro x _ hx
  simp only [Function.comp_apply]
  split
  · rfl
  · exact hx

theorem countP_completed_update_lt {l : List ItemUpholsteryRequirement} (hr : r ∈ l)
    (hstate : r.state ≠ .completed) :
    l.countP (fun r => r.state == .completed) <
      (updateWhere (fun x => x.clientId == r.clientId)
        (fun x : ItemUpholsteryRequirement => { x with state := .completed }) l).countP
          fun r => r.state == .completed := by
  obtain ⟨before, after, rfl⟩ := List.append_of_mem hr
  have hsplit : updateWhere (fun x => x.clientId == r.clientId)
      (fun x : ItemUpholsteryRequirement => { x with state := .completed })
        (before ++ r :: after) =
      updateWhere (fun x => x.clientId == r.clientId)
        (fun x : ItemUpholsteryRequirement => { x with state := .completed }) before ++
      { r with state := .completed } :: updateWhere (fun x => x.clientId == r.clientId)
        (fun x : ItemUpholsteryRequirement => { x with state := .completed }) after := by
    simp [updateWhere]
  rw [hsplit, List.countP_append, List.countP_append,
    List.countP_cons_of_neg (by simpa using hstate), List.countP_cons_of_pos (by simp)]
  have hbefore := countP_completed_update before r.clientId
  have hafter := countP_completed_update after r.clientId
  omega

theorem completeRequirement_count (h : completeRequirement db r = .ok db') :
    db.completedCount ≤ db'.completedCount := by
  rw [Db.completedCount, Db.completedCount, (completeRequirement_rewritesOne h).requirements]
  exact countP_completed_update _ _

theorem completeRequirement_count_lt (h : completeRequirement db r = .ok db')
    (hr : r ∈ db.requirements) (hstate : r.state ≠ .completed) :
    db.completedCount < db'.completedCount := by
  rw [Db.completedCount, Db.completedCount, (completeRequirement_rewritesOne h).requirements]
  exact countP_completed_update_lt hr hstate

theorem completeRequirements_count {l : List ItemUpholsteryRequirement}
    (h : l.foldlM completeRequirement db = .ok db') : db.completedCount ≤ db'.completedCount := by
  induction l generalizing db with
  | nil =>
    cases h
    exact le_rfl
  | cons r l ih =>
    rw [List.foldlM_cons] at h
    obtain ⟨db₁, h₁, h⟩ := bind_eq_ok.mp h
    exact (completeRequirement_count h₁).trans (ih h)

/-- Promoting the requirements of one item upholstery does nothing when there are none, and
completes one more otherwise. -/
theorem promoteRequirements_completed {itemUpholsteryId : ClientId}
    (h : promoteRequirements db itemUpholsteryId .completed = .ok db') :
    db.ownRequirements itemUpholsteryId [.inUse, .available] = [] ∧ db' = db ∨
      db.ownRequirements itemUpholsteryId [.inUse, .available] ≠ [] ∧
        db.completedCount < db'.completedCount := by
  rw [promoteRequirements, if_neg (by simp)] at h
  cases hown : db.ownRequirements itemUpholsteryId [.inUse, .available] with
  | nil =>
    rw [hown] at h
    cases h
    exact .inl ⟨rfl, rfl⟩
  | cons r rest =>
    have hr : r ∈ db.ownRequirements itemUpholsteryId [.inUse, .available] := by
      rw [hown]
      exact List.mem_cons_self
    obtain ⟨hmem, hp⟩ := List.mem_filter.mp hr
    have hstate : r.state ≠ .completed := by
      intro hcompleted
      simp [hcompleted] at hp
    rw [hown, List.foldlM_cons] at h
    obtain ⟨db₁, h₁, h⟩ := bind_eq_ok.mp h
    refine .inr ⟨List.cons_ne_nil _ _, ?_⟩
    exact (completeRequirement_count_lt h₁ hmem hstate).trans_le (completeRequirements_count h)

theorem foldlM_promoteRequirements {us : List ItemUpholstery}
    (h : us.foldlM (fun db u => promoteRequirements db u.clientId .completed) db = .ok db') :
    (∀ u ∈ us, db.ownRequirements u.clientId [.inUse, .available] = []) ∧ db' = db ∨
      db.completedCount < db'.completedCount := by
  induction us generalizing db with
  | nil =>
    cases h
    exact .inl ⟨by simp, rfl⟩
  | cons u us ih =>
    rw [List.foldlM_cons] at h
    obtain ⟨db₁, h₁, h₂⟩ := bind_eq_ok.mp h
    have hrest := ih h₂
    rcases promoteRequirements_completed h₁ with ⟨hnone, rfl⟩ | ⟨-, hlt⟩
    · rcases hrest with ⟨hall, rfl⟩ | hlt
      · refine .inl ⟨?_, rfl⟩
        rintro v (_ | ⟨_, hv⟩)
        · exact hnone
        · exact hall v hv
      · exact .inr hlt
    · rcases hrest with ⟨-, rfl⟩ | hlt'
      · exact .inr hlt
      · exact .inr (hlt.trans hlt')

theorem foldlM_promoteRequirements_of_nil {us : List ItemUpholstery}
    (h : ∀ u ∈ us, db.ownRequirements u.clientId [.inUse, .available] = []) :
    us.foldlM (fun db u => promoteRequirements db u.clientId .completed) db = .ok db := by
  induction us with
  | nil => rfl
  | cons u us ih =>
    rw [List.foldlM_cons, promoteRequirements, if_neg (by simp), h u List.mem_cons_self]
    exact ih fun v hv => h v (List.mem_cons_of_mem u hv)

theorem applyUpholsteryInstallationSideEffect_eq_self :
    applyUpholsteryInstallationSideEffect db taskId sectionName .completed = .ok db ↔
      db.NothingToInstall taskId sectionName := by
  rw [applyUpholsteryInstallationSideEffect, if_neg (by simp), Db.NothingToInstall]
  split
  · next hsection => exact iff_of_true rfl fun h => absurd h hsection
  · next hsection =>
    rw [not_not] at hsection
    rw [forall_prop_of_true hsection]
    split
    · next hnone => simp [hnone, pure, Except.pure]
    · next primary hprimary =>
      simp only [hprimary, Option.mem_def, Option.some.injEq, forall_eq']
      constructor
      · intro h
        rcases foldlM_promoteRequirements h with ⟨hall, -⟩ | hlt
        · exact hall
        · exact absurd hlt (lt_irrefl _)
      · exact foldlM_promoteRequirements_of_nil

end BeyoManager.Upholstery
