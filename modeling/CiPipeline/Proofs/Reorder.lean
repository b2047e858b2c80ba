import CiPipeline.Proofs.Canonical

/-
Jobs that are declared in another order, each with its needs in another order or repeated. The
precedence between them is the same, so both lists are accepted or both are refused, and the levels
are the same (`Reordered.levels_eq`).
-/

namespace CiPipeline

/-! ## The same jobs in another order -/

/-- The same job but for the order and the repetition of its needs. -/
structure Job.Matches (j j' : Job) : Prop where
  eq : j' = { j with needs := j'.needs }
  needs : ∀ need, need ∈ j'.needs ↔ need ∈ j.needs

namespace Job.Matches

variable {j j' : Job}

theorem symm (h : j.Matches j') : j'.Matches j := by
  refine ⟨?_, fun need => (h.needs need).symm⟩
  rw [h.eq]

theorem name_eq (h : j.Matches j') : j'.name = j.name := by rw [h.eq]

theorem gateOrDefault_eq (h : j.Matches j') : j'.gateOrDefault = j.gateOrDefault := by rw [h.eq]; rfl

theorem runsOn_eq (h : j.Matches j') : j'.runsOn = j.runsOn := by rw [h.eq]

theorem memberOf_iff (h : j.Matches j') (group : String) : j'.MemberOf group ↔ j.MemberOf group := by
  rw [h.eq]; exact Iff.rfl

end Job.Matches

/-- The same jobs in another order. -/
def Reordered (jobs jobs' : List Job) : Prop := ∃ js, jobs.Perm js ∧ List.Forall₂ Job.Matches js jobs'

namespace Reordered

variable {jobs jobs' : List Job}

theorem symm (h : Reordered jobs jobs') : Reordered jobs' jobs := by
  obtain ⟨js, hperm, hmatch⟩ := h
  obtain ⟨js', hmatch', hperm'⟩ := List.perm_comp_forall₂ hperm hmatch
  exact ⟨js', hperm'.symm, hmatch'.flip.imp fun _ _ hm => hm.symm⟩

theorem matched (h : Reordered jobs jobs') : ∀ j ∈ jobs, ∃ j' ∈ jobs', j.Matches j' := by
  obtain ⟨js, hperm, hmatch⟩ := h
  intro j hj
  obtain ⟨i, hi, rfl⟩ := List.getElem_of_mem (hperm.mem_iff.1 hj)
  have hi' : i < jobs'.length := hmatch.length_eq ▸ hi
  exact ⟨jobs'[i], List.getElem_mem hi', hmatch.get hi hi'⟩

theorem names_perm (h : Reordered jobs jobs') : (jobs.map (·.name)).Perm (jobs'.map (·.name)) := by
  obtain ⟨js, hperm, hmatch⟩ := h
  have hnames : js.map (·.name) = jobs'.map (·.name) := by
    rw [← List.forall₂_eq_eq_eq, List.forall₂_map_left_iff, List.forall₂_map_right_iff]
    exact hmatch.imp fun _ _ hm => hm.name_eq.symm
  rw [← hnames]
  exact hperm.map _

/-! ## The same precedence -/

theorem precedes (h : Reordered jobs jobs') {d d' j j' : Job} (hd : d.Matches d') (hj : j.Matches j') (hd' : d' ∈ jobs')
    (hj' : j' ∈ jobs') : Precedes jobs d j → Precedes jobs' d' j' := by
  rintro ⟨-, -, need, hneed, hnamed⟩
  refine ⟨hd', hj', need, (hj.needs need).2 hneed, ?_⟩
  rwa [hd.name_eq, ← h.names_perm.mem_iff, hd.memberOf_iff]

theorem wellFormed (h : Reordered jobs jobs') (hwf : WellFormed jobs) : WellFormed jobs' := by
  have hnd : (jobs'.map (·.name)).Nodup := h.names_perm.nodup_iff.1 hwf.names_nodup
  refine ⟨hnd, fun d' hd' j' hj' hm => ?_, fun j' hj' need hneed => ?_⟩
  · obtain ⟨d, hd, hdm⟩ := h.symm.matched d' hd'
    obtain ⟨j, hj, hjm⟩ := h.symm.matched j' hj'
    -- `Matches` goes from the second list to the first here
    rw [← hjm.name_eq, ← hdm.memberOf_iff] at hm
    have heq := hwf.only_member d hd j hj hm
    exact List.inj_on_of_nodup_map hnd hd' hj' (by rw [← hdm.name_eq, ← hjm.name_eq, heq])
  · obtain ⟨j, hj, hjm⟩ := h.symm.matched j' hj'
    rcases hwf.needs_known j hj need ((hjm.needs need).2 hneed) with hname | ⟨d, hd, hm⟩
    · exact .inl (h.names_perm.mem_iff.1 hname)
    · obtain ⟨d', hd', hdm⟩ := h.matched d hd
      exact .inr ⟨d', hd', (hdm.memberOf_iff need).2 hm⟩

theorem beforeName_subset (h : Reordered jobs jobs') (hwf : WellFormed jobs) {n : String} (hn : n ∈ jobs.map (·.name)) :
    Graph.beforeName jobs n ⊆ Graph.beforeName jobs' n := by
  intro m hm
  obtain ⟨j, hj, rfl⟩ := List.mem_map.1 hn
  obtain ⟨d, hpre, rfl⟩ := (Graph.mem_beforeName hwf hj).1 hm
  obtain ⟨j', hj', hjm⟩ := h.matched j hj
  obtain ⟨d', hd', hdm⟩ := h.matched d hpre.1
  rw [← hjm.name_eq, Graph.mem_beforeName (h.wellFormed hwf) hj']
  exact ⟨d', h.precedes hdm hjm hd' hj' hpre, hdm.name_eq⟩

/-! ## The same levels -/

/-- Lists of the same jobs are both refused, or they have graphs with the same levels. -/
theorem levels_eq (h : Reordered jobs jobs') :
    (¬ WellFormed jobs ∧ ¬ WellFormed jobs') ∨
      ∃ g g', Graph.ofJobs jobs = .ok g ∧ Graph.ofJobs jobs' = .ok g' ∧ g.levels = g'.levels := by
  by_cases hwf : WellFormed jobs
  · have hwf' := h.wellFormed hwf
    refine .inr ⟨_, _, Graph.ofJobs_eq_ok hwf, Graph.ofJobs_eq_ok hwf', ?_⟩
    refine (Graph.represents_ofEdges hwf).levels_congr (Graph.represents_ofEdges hwf') h.names_perm fun n hn => ?_
    exact Finset.Subset.antisymm (h.beforeName_subset hwf hn)
      (h.symm.beforeName_subset hwf' (h.names_perm.mem_iff.1 hn))
  · exact .inl ⟨hwf, fun hwf' => hwf (h.symm.wellFormed hwf')⟩

end Reordered

end CiPipeline
