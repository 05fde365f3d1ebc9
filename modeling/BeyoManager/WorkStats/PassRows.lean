import BeyoManager.WorkStats.Reconcile

/-! # The rows after a pass

A pass sets the rows of one user and day and adds the differences to the totals of the user and of
the sections. Its effect is read off row by row, and a pass over rows that already hold the figures
changes nothing.
-/

namespace BeyoManager.WorkStats

open Rollup TaskSteps

variable {columns columns' : Column → Bool} {fig fig' : DayFigures} {userId userId' : ClientId}
  {workDate workDate' : Date} {stats stats' : Stats} {sectionId : ClientId}
  {t : Table (ClientId × ClientId × Date) StatsRow} {t' : Table (ClientId × Date) StatsRow}
  {ids : List ClientId}

theorem mem_existingSections :
    sectionId ∈ existingSections userId workDate t ↔ (userId, sectionId, workDate) ∈ t := by
  simp only [existingSections, List.mem_filterMap, Option.ite_none_right_eq_some,
    Option.some.injEq, AList.mem_keys]
  constructor
  · rintro ⟨⟨_, _, _⟩, hk, ⟨rfl, rfl⟩, rfl⟩
    exact hk
  · intro hk
    exact ⟨_, hk, ⟨rfl, rfl⟩, rfl⟩

theorem mem_allSectionIds : sectionId ∈ allSectionIds fig userId workDate t ↔
    sectionId ∈ fig.perSection.map Prod.fst ∨ (userId, sectionId, workDate) ∈ t := by
  rw [allSectionIds, List.mem_dedup, List.mem_append, mem_existingSections]

theorem allSectionIds_nodup : (allSectionIds fig userId workDate t).Nodup := List.nodup_dedup _

/-- The rows and the deltas after the sections of a list were set. -/
theorem foldl_setSection (hnodup : ids.Nodup) (deltas : List (ClientId × Totals)) :
    (∀ k, ((ids.foldl (setSection columns fig userId workDate) (t, deltas)).1).lookup k =
      if k.1 = userId ∧ k.2.2 = workDate ∧ k.2.1 ∈ ids then
        some (applySet columns (fig.ofSection k.2.1) (getOrCreate t k)) else t.lookup k) ∧
      (ids.foldl (setSection columns fig userId workDate) (t, deltas)).2 =
        deltas ++ ids.map fun id =>
          (id, asDelta columns (fig.ofSection id) (getOrCreate t (userId, id, workDate))) := by
  induction ids generalizing t deltas with
  | nil => simp
  | cons id ids ih =>
    obtain ⟨hid, hnodup⟩ := List.nodup_cons.mp hnodup
    obtain ⟨hrows, hdeltas⟩ := ih (t := (setSection columns fig userId workDate (t, deltas) id).1)
      hnodup (setSection columns fig userId workDate (t, deltas) id).2
    have hother : ∀ k, k ≠ (userId, id, workDate) →
        getOrCreate (setSection columns fig userId workDate (t, deltas) id).1 k =
          getOrCreate t k := by
      intro k hk
      simp only [getOrCreate, setSection, AList.lookup_insert_ne hk]
    constructor
    · rintro ⟨u, s, d⟩
      rw [List.foldl_cons, hrows]
      by_cases hk : (u, s, d) = (userId, id, workDate)
      · obtain ⟨rfl, rfl, rfl⟩ : u = userId ∧ s = id ∧ d = workDate := by simpa using hk
        rw [if_neg fun h => hid h.2.2, if_pos ⟨rfl, rfl, List.mem_cons_self⟩]
        exact AList.lookup_insert _
      · rw [hother _ hk]
        have hmem : (u = userId ∧ d = workDate ∧ s ∈ id :: ids) ↔
            (u = userId ∧ d = workDate ∧ s ∈ ids) := by
          refine and_congr_right fun hu => and_congr_right fun hd => ?_
          rw [List.mem_cons, or_iff_right]
          rintro rfl
          exact hk (by rw [hu, hd])
        simp only [hmem, setSection, AList.lookup_insert_ne hk]
    · have hfirst : (setSection columns fig userId workDate (t, deltas) id).2 = deltas ++
          [(id, asDelta columns (fig.ofSection id) (getOrCreate t (userId, id, workDate)))] := rfl
      rw [List.foldl_cons, hdeltas, hfirst, List.map_cons, List.append_assoc]
      refine congrArg (deltas ++ ·) (congrArg (_ :: ·) (List.map_congr_left fun id' hid' => ?_))
      rw [hother]
      intro he
      obtain rfl : id' = id := congrArg (fun k => k.2.1) he
      exact hid hid'

/-- The rows after the deltas of some sections were added. -/
theorem foldl_applySectionDelta (hnodup : ids.Nodup) (delta : ClientId → Totals)
    (k : ClientId × Date) :
    ((ids.map fun id => (id, delta id)).foldl (applySectionDelta columns workDate) t').lookup k =
      if k.2 = workDate ∧ k.1 ∈ ids then
        some (applyDelta columns (delta k.1) (getOrCreate t' k)) else t'.lookup k := by
  induction ids generalizing t' with
  | nil => simp
  | cons id ids ih =>
    obtain ⟨hid, hnodup⟩ := List.nodup_cons.mp hnodup
    rw [List.map_cons, List.foldl_cons, ih hnodup]
    obtain ⟨s, d⟩ := k
    by_cases hk : (s, d) = (id, workDate)
    · obtain ⟨rfl, rfl⟩ : s = id ∧ d = workDate := by simpa using hk
      rw [if_neg fun h => hid h.2, if_pos ⟨rfl, List.mem_cons_self⟩]
      exact AList.lookup_insert _
    · have hmem : (d = workDate ∧ s ∈ id :: ids) ↔ (d = workDate ∧ s ∈ ids) := by
        refine and_congr_right fun hd => ?_
        rw [List.mem_cons, or_iff_right]
        rintro rfl
        exact hk (by rw [hd])
      simp only [hmem, applySectionDelta, getOrCreate, AList.lookup_insert_ne hk]

section Lookup

theorem pass_userDaily (k : ClientId × Date) :
    (pass columns fig userId workDate stats).userDaily.lookup k =
      if k = (userId, workDate) then
        some (applySet columns fig.day (getOrCreate stats.userDaily k))
      else stats.userDaily.lookup k := by
  by_cases hk : k = (userId, workDate)
  · subst hk
    rw [if_pos rfl]
    exact AList.lookup_insert _
  · rw [if_neg hk]
    exact AList.lookup_insert_ne hk

theorem pass_userSectionDaily (k : ClientId × ClientId × Date) :
    (pass columns fig userId workDate stats).userSectionDaily.lookup k =
      if k.1 = userId ∧ k.2.2 = workDate ∧
          k.2.1 ∈ allSectionIds fig userId workDate stats.userSectionDaily then
        some (applySet columns (fig.ofSection k.2.1) (getOrCreate stats.userSectionDaily k))
      else stats.userSectionDaily.lookup k :=
  (foldl_setSection allSectionIds_nodup []).1 k

theorem pass_userLifetime (k : ClientId) :
    (pass columns fig userId workDate stats).userLifetime.lookup k =
      if k = userId then
        some (applyDelta columns
          (asDelta columns fig.day (getOrCreate stats.userDaily (userId, workDate)))
          (getOrCreate stats.userLifetime k))
      else stats.userLifetime.lookup k := by
  by_cases hk : k = userId
  · subst hk
    rw [if_pos rfl]
    exact AList.lookup_insert _
  · rw [if_neg hk]
    exact AList.lookup_insert_ne hk

theorem pass_sectionDaily (k : ClientId × Date) :
    (pass columns fig userId workDate stats).sectionDaily.lookup k =
      if k.2 = workDate ∧ k.1 ∈ allSectionIds fig userId workDate stats.userSectionDaily then
        some (applyDelta columns
          (asDelta columns (fig.ofSection k.1)
            (getOrCreate stats.userSectionDaily (userId, k.1, workDate)))
          (getOrCreate stats.sectionDaily k))
      else stats.sectionDaily.lookup k := by
  have hdeltas : ((allSectionIds fig userId workDate stats.userSectionDaily).foldl
      (setSection columns fig userId workDate) (stats.userSectionDaily, [])).2 = _ :=
    (foldl_setSection allSectionIds_nodup []).2
  change ((((allSectionIds fig userId workDate stats.userSectionDaily).foldl
    (setSection columns fig userId workDate) (stats.userSectionDaily, [])).2).foldl
      (applySectionDelta columns workDate) stats.sectionDaily).lookup k = _
  rw [hdeltas, List.nil_append, foldl_applySectionDelta allSectionIds_nodup]

end Lookup

def SameFigures {κ : Type} [DecidableEq κ] (t t' : Table κ StatsRow) : Prop :=
  ∀ k, (t.lookup k).map figures = (t'.lookup k).map figures

/-- The same rows with the same figures in all four tables. -/
structure Stats.Same (stats stats' : Stats) : Prop where
  userDaily : SameFigures stats.userDaily stats'.userDaily
  userSectionDaily : SameFigures stats.userSectionDaily stats'.userSectionDaily
  sectionDaily : SameFigures stats.sectionDaily stats'.sectionDaily
  userLifetime : SameFigures stats.userLifetime stats'.userLifetime

/-- The rows of a user and day hold the figures, and the totals that they go into are there. -/
structure Settled (columns : Column → Bool) (fig : DayFigures) (userId : ClientId)
    (workDate : Date) (stats : Stats) : Prop where
  day : ∃ row, stats.userDaily.lookup (userId, workDate) = some row ∧
    ∀ c, columns c → figures row c = fig.day c
  named : ∀ sectionId ∈ fig.perSection.map Prod.fst,
    (userId, sectionId, workDate) ∈ stats.userSectionDaily
  sections : ∀ sectionId row,
    stats.userSectionDaily.lookup (userId, sectionId, workDate) = some row →
      ∀ c, columns c → figures row c = fig.ofSection sectionId c
  sectionTotals : ∀ sectionId, (userId, sectionId, workDate) ∈ stats.userSectionDaily →
    (sectionId, workDate) ∈ stats.sectionDaily
  lifetime : userId ∈ stats.userLifetime

section Settled

theorem lookup_some_of_mem {κ : Type} [DecidableEq κ] {t : Table κ StatsRow} {k : κ} (h : k ∈ t) :
    ∃ row, t.lookup k = some row :=
  Option.isSome_iff_exists.mp (AList.lookup_isSome.mpr h)

theorem mem_of_lookup {κ : Type} [DecidableEq κ] {t : Table κ StatsRow} {k : κ} {row : StatsRow}
    (h : t.lookup k = some row) : k ∈ t :=
  AList.lookup_isSome.mp (by rw [h, Option.isSome_some])

theorem ofSection_of_not_named (h : sectionId ∉ fig.perSection.map Prod.fst) :
    fig.ofSection sectionId = 0 := by
  have hnone : fig.perSection.find? (fun s => s.1 == sectionId) = none := by
    rw [List.find?_eq_none]
    intro s hs hid
    exact h (List.mem_map.mpr ⟨s, hs, by simpa using hid⟩)
  rw [DayFigures.ofSection, hnone, Option.map_none, Option.getD_none]

theorem mem_pass_userSectionDaily (k : ClientId × ClientId × Date) :
    k ∈ (pass columns fig userId workDate stats).userSectionDaily ↔
      k ∈ stats.userSectionDaily ∨
        k.1 = userId ∧ k.2.2 = workDate ∧ k.2.1 ∈ fig.perSection.map Prod.fst := by
  obtain ⟨u, s, d⟩ := k
  rw [← AList.lookup_isSome, pass_userSectionDaily, ← AList.lookup_isSome]
  split
  · rename_i hk
    obtain ⟨rfl, rfl, hs⟩ := hk
    refine iff_of_true rfl ?_
    rw [AList.lookup_isSome]
    exact (mem_allSectionIds.mp hs).symm.imp_right fun hs => ⟨rfl, rfl, hs⟩
  · rename_i hk
    refine (or_iff_left fun h => hk ⟨h.1, h.2.1, ?_⟩).symm
    exact mem_allSectionIds.mpr (.inl h.2.2)

theorem mem_pass_sectionDaily (k : ClientId × Date) :
    k ∈ (pass columns fig userId workDate stats).sectionDaily ↔
      k ∈ stats.sectionDaily ∨
        k.2 = workDate ∧ k.1 ∈ allSectionIds fig userId workDate stats.userSectionDaily := by
  rw [← AList.lookup_isSome, pass_sectionDaily, ← AList.lookup_isSome]
  split
  · rename_i hk
    exact iff_of_true rfl (.inr hk)
  · rename_i hk
    exact (or_iff_left hk).symm

theorem mem_pass_userLifetime (k : ClientId) :
    k ∈ (pass columns fig userId workDate stats).userLifetime ↔
      k ∈ stats.userLifetime ∨ k = userId := by
  rw [← AList.lookup_isSome, pass_userLifetime, ← AList.lookup_isSome]
  split
  · rename_i hk
    exact iff_of_true rfl (.inr hk)
  · rename_i hk
    exact (or_iff_left hk).symm

theorem settled_pass : Settled columns fig userId workDate
    (pass columns fig userId workDate stats) where
  day := by
    refine ⟨_, by rw [pass_userDaily, if_pos rfl], fun c hc => ?_⟩
    rw [figures_applySet_apply, if_pos hc]
  named sectionId hs := (mem_pass_userSectionDaily _).mpr (.inr ⟨rfl, rfl, hs⟩)
  sections := by
    intro sectionId row hrow c hc
    have hmem := (mem_pass_userSectionDaily _).mp (mem_of_lookup hrow)
    have hid : sectionId ∈ allSectionIds fig userId workDate stats.userSectionDaily :=
      mem_allSectionIds.mpr (hmem.symm.imp_left fun h => h.2.2)
    rw [pass_userSectionDaily, if_pos ⟨rfl, rfl, hid⟩] at hrow
    obtain rfl := Option.some.inj hrow
    rw [figures_applySet_apply, if_pos hc]
  sectionTotals := by
    intro sectionId hmem
    refine (mem_pass_sectionDaily _).mpr (.inr ⟨rfl, mem_allSectionIds.mpr ?_⟩)
    exact ((mem_pass_userSectionDaily _).mp hmem).symm.imp_left fun h => h.2.2
  lifetime := (mem_pass_userLifetime _).mpr (.inr rfl)

/-- A pass for another user or day, or over other columns, leaves a settled day. -/
theorem Settled.pass_other (h : Settled columns fig userId workDate stats)
    (hother : (userId', workDate') ≠ (userId, workDate) ∨
      ∀ c, columns c = true → columns' c = false) :
    Settled columns fig userId workDate (pass columns' fig' userId' workDate' stats) := by
  have hkeep : ∀ (totals : Totals) (row : StatsRow) (c : Column), columns c →
      (userId, workDate) = (userId', workDate') →
        figures (applySet columns' totals row) c = figures row c := by
    intro totals row c hc hkey
    rcases hother with hne | hcolumns
    · exact absurd hkey.symm hne
    · rw [figures_applySet_apply, hcolumns c hc, if_neg Bool.false_ne_true]
  constructor
  · obtain ⟨row, hrow, hfig⟩ := h.day
    rw [pass_userDaily]
    split
    · rename_i hkey
      refine ⟨_, rfl, fun c hc => ?_⟩
      rw [hkeep _ _ c hc hkey, getOrCreate_of_lookup hrow, hfig c hc]
    · exact ⟨row, hrow, hfig⟩
  · exact fun sectionId hs => (mem_pass_userSectionDaily _).mpr (.inl (h.named sectionId hs))
  · intro sectionId row hrow c hc
    rw [pass_userSectionDaily] at hrow
    split at hrow
    · rename_i hk
      obtain ⟨hu, hd, -⟩ := hk
      obtain rfl := Option.some.inj hrow
      rw [hkeep _ _ c hc (Prod.ext hu hd), getOrCreate]
      cases hold : stats.userSectionDaily.lookup (userId, sectionId, workDate) with
      | some old => exact h.sections sectionId old hold c hc
      | none =>
        have hnot : sectionId ∉ fig.perSection.map Prod.fst := by
          intro hs
          have := AList.lookup_isSome.mpr (h.named sectionId hs)
          rw [hold] at this
          cases this
        rw [Option.getD_none, figures_newRow, ofSection_of_not_named hnot]
    · exact h.sections sectionId row hrow c hc
  · intro sectionId hmem
    rcases (mem_pass_userSectionDaily _).mp hmem with hmem | ⟨hu, hd, hs⟩
    · exact (mem_pass_sectionDaily _).mpr (.inl (h.sectionTotals sectionId hmem))
    · exact (mem_pass_sectionDaily _).mpr (.inr ⟨hd, mem_allSectionIds.mpr (.inl hs)⟩)
  · exact (mem_pass_userLifetime _).mpr (.inl h.lifetime)

/-- A pass over a settled day leaves all figures as they are. -/
theorem Settled.pass_same (h : Settled columns fig userId workDate stats) :
    stats.Same (pass columns fig userId workDate stats) := by
  have hset : ∀ (totals : Totals) (row : StatsRow), (∀ c, columns c → figures row c = totals c) →
      figures (applySet columns totals row) = figures row := by
    intro totals row hrow
    rw [figures_applySet, asDelta_of_eq hrow, add_zero]
  have hadd : ∀ (totals : Totals) (row row' : StatsRow),
      (∀ c, columns c → figures row c = totals c) →
        figures (applyDelta columns (asDelta columns totals row) row') = figures row' := by
    intro totals row row' hrow
    rw [figures_applyDelta fun c hc => asDelta_of_not hc, asDelta_of_eq hrow, add_zero]
  have hsection : ∀ sectionId,
      sectionId ∈ allSectionIds fig userId workDate stats.userSectionDaily →
        ∃ row, stats.userSectionDaily.lookup (userId, sectionId, workDate) = some row ∧
          ∀ c, columns c → figures row c = fig.ofSection sectionId c := by
    intro sectionId hid
    obtain ⟨row, hrow⟩ := lookup_some_of_mem
      ((mem_allSectionIds.mp hid).elim (h.named sectionId) id)
    exact ⟨row, hrow, h.sections sectionId row hrow⟩
  constructor
  · intro k
    rw [pass_userDaily]
    split
    · rename_i hk
      subst hk
      obtain ⟨row, hrow, hfig⟩ := h.day
      rw [hrow, getOrCreate_of_lookup hrow, Option.map_some, Option.map_some, hset _ _ hfig]
    · rfl
  · rintro ⟨u, s, d⟩
    rw [pass_userSectionDaily]
    split
    · rename_i hk
      obtain ⟨rfl, rfl, hid⟩ := hk
      obtain ⟨row, hrow, hfig⟩ := hsection _ hid
      rw [hrow, getOrCreate_of_lookup hrow, Option.map_some, Option.map_some, hset _ _ hfig]
    · rfl
  · rintro ⟨s, d⟩
    rw [pass_sectionDaily]
    split
    · rename_i hk
      obtain ⟨rfl, hid⟩ := hk
      obtain ⟨row, hrow, hfig⟩ := hsection _ hid
      obtain ⟨row', hrow'⟩ := lookup_some_of_mem (h.sectionTotals _ (mem_of_lookup hrow))
      rw [hrow', getOrCreate_of_lookup hrow', getOrCreate_of_lookup hrow, Option.map_some,
        Option.map_some, hadd _ _ _ hfig]
    · rfl
  · intro k
    rw [pass_userLifetime]
    split
    · rename_i hk
      subst hk
      obtain ⟨row, hrow, hfig⟩ := h.day
      obtain ⟨row', hrow'⟩ := lookup_some_of_mem h.lifetime
      rw [hrow', getOrCreate_of_lookup hrow', getOrCreate_of_lookup hrow, Option.map_some,
        Option.map_some, hadd _ _ _ hfig]
    · rfl

end Settled

end BeyoManager.WorkStats
