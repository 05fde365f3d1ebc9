import BeyoManager.Library.Acyclic
import BeyoManager.TaskSteps.StepRuns

/-! # The graph of working sections

The breadth-first search that guards an edit of the prerequisite sections visits everything that the
new prerequisites lead to and ends there, so it rejects exactly what would make a section wait for
itself.
-/

namespace BeyoManager.TaskSteps

open Cycles Relation Relational Transition

section Search

variable {db : Db} {sectionId : ClientId}

/-- The first section names the second one as its prerequisite. -/
def Db.SectionRow (db : Db) (a b : ClientId) : Prop :=
  ∃ d ∈ db.workingSectionDependencies, d.dependentSectionId = a ∧ d.prerequisiteSectionId = b

theorem mem_prerequisiteSections {a b : ClientId} :
    b ∈ db.prerequisiteSections a ↔ db.SectionRow a b := by
  simp only [Db.prerequisiteSections, List.mem_map, List.mem_filter, beq_iff_eq, Db.SectionRow]
  constructor
  · rintro ⟨d, ⟨hd, ha⟩, hb⟩
    exact ⟨d, hd, ha, hb⟩
  · rintro ⟨d, hd, ha, hb⟩
    exact ⟨d, ⟨hd, ha⟩, hb⟩

def Db.rowsLeft (db : Db) (visited : List ClientId) : ℕ :=
  db.workingSectionDependencies.countP fun d => d.dependentSectionId ∉ visited

theorem rowsLeft_cons {visited : List ClientId} {current : ClientId} (h : current ∉ visited) :
    db.rowsLeft visited =
      db.rowsLeft (current :: visited) + (db.prerequisiteSections current).length := by
  rw [Db.rowsLeft, Db.rowsLeft, Db.prerequisiteSections, List.length_map,
    ← List.countP_eq_length_filter]
  induction db.workingSectionDependencies with
  | nil => rfl
  | cons d rows ih =>
    rw [List.countP_cons, List.countP_cons, List.countP_cons, ih]
    by_cases hd : d.dependentSectionId = current
    · subst hd
      simp [h]
      omega
    · by_cases hv : d.dependentSectionId ∈ visited
      · simp [hd, hv]
      · simp [hd, hv]
        omega

/-- A search that does not reach the section ends with a closed set that lacks it. -/
theorem reachesSection_eq_false {fuel : ℕ} {visited queue : List ClientId}
    (hfuel : queue.length + db.rowsLeft visited < fuel) (hnot : sectionId ∉ visited)
    (hclosed : ∀ x ∈ visited, ∀ y, db.SectionRow x y → y ∈ visited ∨ y ∈ queue)
    (h : reachesSection db sectionId fuel visited queue = false) :
    ∃ all : List ClientId, (∀ x ∈ visited, x ∈ all) ∧ (∀ x ∈ queue, x ∈ all) ∧
      sectionId ∉ all ∧ ∀ x ∈ all, ∀ y, db.SectionRow x y → y ∈ all := by
  induction fuel, visited, queue using reachesSection.induct db sectionId with
  | case1 => omega
  | case2 fuel visited =>
    refine ⟨visited, fun x hx => hx, by simp, hnot, fun x hx y hxy => ?_⟩
    simpa using hclosed x hx y hxy
  | case3 fuel visited queue =>
    rw [reachesSection, if_pos rfl] at h
    cases h
  | case4 fuel visited current queue hne hmem ih =>
    rw [reachesSection, if_neg hne, if_pos hmem] at h
    obtain ⟨all, hvisited, hqueue, hrest⟩ := ih (by simp at hfuel; omega) hnot
      (fun x hx y hxy => by
        rcases hclosed x hx y hxy with hy | hy
        · exact .inl hy
        · rcases List.mem_cons.mp hy with rfl | hy
          · exact .inl hmem
          · exact .inr hy) h
    refine ⟨all, hvisited, fun x hx => ?_, hrest⟩
    rcases List.mem_cons.mp hx with rfl | hx
    · exact hvisited x hmem
    · exact hqueue x hx
  | case5 fuel visited current queue hne hmem ih =>
    rw [reachesSection, if_neg hne, if_neg hmem] at h
    have hlength := List.length_filter_le (fun p => decide (p ∉ current :: visited))
      (db.prerequisiteSections current)
    have hrows := @rowsLeft_cons db visited current hmem
    obtain ⟨all, hvisited, hqueue, hrest⟩ := ih (by simp at hfuel ⊢; simp at hlength; omega)
      (by simpa using ⟨Ne.symm hne, hnot⟩)
      (fun x hx y hxy => by
        by_cases hy : y ∈ current :: visited
        · exact .inl hy
        · refine .inr (List.mem_append.mpr ?_)
          rcases List.mem_cons.mp hx with rfl | hx
          · exact .inr (List.mem_filter.mpr ⟨mem_prerequisiteSections.mpr hxy, by simpa using hy⟩)
          · rcases hclosed x hx y hxy with hyv | hyq
            · exact absurd (List.mem_cons_of_mem _ hyv) hy
            · rcases List.mem_cons.mp hyq with rfl | hyq
              · exact absurd List.mem_cons_self hy
              · exact .inl hyq) h
    refine ⟨all, fun x hx => hvisited x (List.mem_cons_of_mem _ hx), fun x hx => ?_, hrest⟩
    rcases List.mem_cons.mp hx with rfl | hx
    · exact hvisited x List.mem_cons_self
    · exact hqueue x (List.mem_append_left _ hx)

theorem checkForDependencyCycle_eq_ok {newPrerequisiteIds : List ClientId} {u : Unit}
    (h : checkForDependencyCycle db sectionId newPrerequisiteIds = .ok u) :
    ∀ p ∈ newPrerequisiteIds, ¬ ReflTransGen db.SectionRow p sectionId := by
  have hsearch := Bool.not_eq_true _ ▸ throwIf_eq_ok.mp h
  have hfuel : newPrerequisiteIds.length + db.rowsLeft [] <
      newPrerequisiteIds.length + db.workingSectionDependencies.length + 1 := by
    have hle : db.rowsLeft [] ≤ db.workingSectionDependencies.length := List.countP_le_length
    omega
  obtain ⟨all, -, hqueue, hout, hclosed⟩ :=
    reachesSection_eq_false hfuel List.not_mem_nil (by simp) hsearch
  exact fun p hp hpath => hout (mem_of_closed (p := fun x => x ∈ all)
    (fun x y hx hxy => hclosed x hx y hxy) hpath (hqueue p hp))

theorem exists_path_of_reachesSection {fuel : ℕ} {visited queue : List ClientId}
    (h : reachesSection db sectionId fuel visited queue = true) :
    ∃ p ∈ queue, ReflTransGen (fun a b => db.SectionRow a b ∧ a ≠ sectionId) p sectionId := by
  induction fuel, visited, queue using reachesSection.induct db sectionId with
  | case1 => cases h
  | case2 => cases h
  | case3 fuel visited queue => exact ⟨sectionId, List.mem_cons_self, .refl⟩
  | case4 fuel visited current queue hne hmem ih =>
    rw [reachesSection, if_neg hne, if_pos hmem] at h
    obtain ⟨p, hp, hpath⟩ := ih h
    exact ⟨p, List.mem_cons_of_mem _ hp, hpath⟩
  | case5 fuel visited current queue hne hmem ih =>
    rw [reachesSection, if_neg hne, if_neg hmem] at h
    obtain ⟨p, hp, hpath⟩ := ih h
    rcases List.mem_append.mp hp with hp | hp
    · exact ⟨p, List.mem_cons_of_mem _ hp, hpath⟩
    · have hrow := mem_prerequisiteSections.mp (List.mem_of_mem_filter hp)
      exact ⟨current, List.mem_cons_self, .head ⟨hrow, hne⟩ hpath⟩

inductive SearchState
  | running (visited queue : List ClientId)
  | found
  | exhausted
  deriving DecidableEq, Repr

def searchPass (db : Db) (sectionId : ClientId) : SearchState → SearchState
  | .running _ [] => .exhausted
  | .running visited (current :: queue) =>
    if current = sectionId then .found
    else if current ∈ visited then .running visited queue
    else .running (current :: visited)
      (queue ++ (db.prerequisiteSections current).filter fun p => p ∉ current :: visited)
  | state => state

theorem searchPass_iterate_of_ended {state : SearchState} (n : ℕ)
    (h : state = .found ∨ state = .exhausted) : (searchPass db sectionId)^[n] state = state := by
  induction n with
  | zero => rfl
  | succ n ih =>
    rw [Function.iterate_succ_apply]
    rcases h with rfl | rfl
    · exact ih
    · exact ih

/-- The loop ends, and the function says how. -/
theorem searchPass_iterate {fuel : ℕ} {visited queue : List ClientId}
    (hfuel : queue.length + db.rowsLeft visited < fuel) :
    (searchPass db sectionId)^[fuel] (.running visited queue) =
      if reachesSection db sectionId fuel visited queue then .found else .exhausted := by
  induction fuel, visited, queue using reachesSection.induct db sectionId with
  | case1 => omega
  | case2 fuel visited => exact searchPass_iterate_of_ended fuel (.inr rfl)
  | case3 fuel visited queue =>
    rw [reachesSection, if_pos rfl, if_pos rfl, Function.iterate_succ_apply, searchPass, if_pos rfl]
    exact searchPass_iterate_of_ended fuel (.inl rfl)
  | case4 fuel visited current queue hne hmem ih =>
    rw [reachesSection, if_neg hne, if_pos hmem, Function.iterate_succ_apply, searchPass,
      if_neg hne, if_pos hmem]
    apply ih
    rw [List.length_cons] at hfuel
    omega
  | case5 fuel visited current queue hne hmem ih =>
    rw [reachesSection, if_neg hne, if_neg hmem, Function.iterate_succ_apply, searchPass,
      if_neg hne, if_neg hmem]
    apply ih
    have hlength := List.length_filter_le (fun p => decide (p ∉ current :: visited))
      (db.prerequisiteSections current)
    have hrows := @rowsLeft_cons db visited current hmem
    rw [List.length_cons] at hfuel
    rw [List.length_append]
    omega

end Search

section Edit

variable {db : Db} {sectionId : ClientId} {depIds : List ClientId}

theorem sectionRow_withPrerequisiteSections {a b : ClientId} :
    (db.withPrerequisiteSections sectionId depIds).SectionRow a b ↔
      (db.SectionRow a b ∧ a ≠ sectionId) ∨ a = sectionId ∧ b ∈ depIds := by
  simp only [Db.SectionRow, Db.withPrerequisiteSections, List.mem_append, mem_deleteWhere,
    List.mem_map]
  constructor
  · rintro ⟨d, ⟨hd, hne⟩ | ⟨id, hid, rfl⟩, rfl, rfl⟩
    · exact .inl ⟨⟨d, hd, rfl, rfl⟩, by simpa using hne⟩
    · exact .inr ⟨rfl, hid⟩
  · rintro (⟨⟨d, hd, rfl, rfl⟩, hne⟩ | ⟨rfl, hb⟩)
    · exact ⟨d, .inl ⟨hd, by simpa using hne⟩, rfl, rfl⟩
    · exact ⟨_, .inr ⟨b, hb, rfl⟩, rfl, rfl⟩

theorem acyclic_withPrerequisiteSections (h : Acyclic db.SectionRow)
    (hcheck : ∀ p ∈ depIds, ¬ ReflTransGen db.SectionRow p sectionId) :
    Acyclic (db.withPrerequisiteSections sectionId depIds).SectionRow := by
  have hkept : Acyclic fun a b => db.SectionRow a b ∧ a ≠ sectionId := h.mono fun _ _ hab => hab.1
  refine Acyclic.mono (hkept.add ?_)
    fun a b => sectionRow_withPrerequisiteSections.mp
  rintro a b ⟨-, hb⟩ a' b' ⟨rfl, -⟩ hpath
  exact hcheck b hb (hpath.lift id fun _ _ hxy => hxy.1)

theorem not_acyclic_of_reachesSection {fuel : ℕ}
    (h : reachesSection db sectionId fuel [] depIds = true) :
    ¬ Acyclic (db.withPrerequisiteSections sectionId depIds).SectionRow := by
  intro hacyclic
  obtain ⟨p, hp, hpath⟩ := exists_path_of_reachesSection h
  have hfirst : (db.withPrerequisiteSections sectionId depIds).SectionRow sectionId p :=
    sectionRow_withPrerequisiteSections.mpr (.inr ⟨rfl, hp⟩)
  have hrest := hpath.lift (p := (db.withPrerequisiteSections sectionId depIds).SectionRow) id
    fun a b hab => sectionRow_withPrerequisiteSections.mpr (.inl hab)
  exact hacyclic sectionId (.head' hfirst hrest)

/-- The check ends after finitely many passes, and rejects exactly the prerequisites that would
close a cycle. -/
structure Decides (db : Db) (sectionId : ClientId) (depIds : List ClientId) : Prop where
  terminates : ∃ passes, (searchPass db sectionId)^[passes] (.running [] depIds) =
    match checkForDependencyCycle db sectionId depIds with
    | .ok _ => .exhausted
    | .error _ => .found
  rejects_iff : checkForDependencyCycle db sectionId depIds =
      .error (.conflict "Adding these dependencies would create a circular dependency.") ↔
    ¬ Acyclic (db.withPrerequisiteSections sectionId depIds).SectionRow

theorem decides_of_acyclic (h : Acyclic db.SectionRow) (sectionId : ClientId)
    (depIds : List ClientId) : Decides db sectionId depIds := by
  have hfuel : depIds.length + db.rowsLeft [] <
      depIds.length + db.workingSectionDependencies.length + 1 := by
    have hle : db.rowsLeft [] ≤ db.workingSectionDependencies.length := List.countP_le_length
    omega
  have hloop := @searchPass_iterate db sectionId _ _ _ hfuel
  cases hsearch : reachesSection db sectionId
      (depIds.length + db.workingSectionDependencies.length + 1) [] depIds with
  | true =>
    have hcheck : checkForDependencyCycle db sectionId depIds = .error
        (.conflict "Adding these dependencies would create a circular dependency.") := by
      rw [checkForDependencyCycle, hsearch]
      rfl
    rw [hsearch, if_pos rfl] at hloop
    refine ⟨⟨_, by rw [hloop, hcheck]⟩, ?_⟩
    exact iff_of_true hcheck (not_acyclic_of_reachesSection hsearch)
  | false =>
    have hcheck : checkForDependencyCycle db sectionId depIds = .ok () := by
      rw [checkForDependencyCycle, hsearch]
      rfl
    rw [hsearch, if_neg Bool.false_ne_true] at hloop
    refine ⟨⟨_, by rw [hloop, hcheck]⟩, ?_⟩
    rw [hcheck]
    apply iff_of_false
    · rintro ⟨⟩
    · exact not_not_intro
        (acyclic_withPrerequisiteSections h (checkForDependencyCycle_eq_ok hcheck))

end Edit

end BeyoManager.TaskSteps
