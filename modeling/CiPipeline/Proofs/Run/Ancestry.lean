import CiPipeline.Proofs.Run.Solution

/-
A job's result depends on its ancestors only. A part of the jobs that has the predecessors of all
its jobs is well formed if the jobs are, and its jobs see in it what they see among all jobs; so
the equations on the part are the same in both settings, and if no run fails fast their solutions
agree (`Solves.agree_on`), whatever comes of the other jobs.
-/

namespace CiPipeline

/-! ## Parts with all predecessors -/

/-- Some of the jobs, each once, with all jobs that precede them. -/
structure AncestralPart (jobs part : List Job) : Prop where
  subperm : part.Subperm jobs
  closed : ∀ d j, Precedes jobs d j → j ∈ part → d ∈ part

namespace AncestralPart

variable {jobs part : List Job}

protected theorem refl (jobs : List Job) : AncestralPart jobs jobs := ⟨.refl jobs, fun _ _ hpre _ => hpre.1⟩

theorem mem (hp : AncestralPart jobs part) {j : Job} (hj : j ∈ part) : j ∈ jobs := hp.subperm.subset hj

/-- What a job of the part needs is the name of a job of the part exactly if it is the name of any job. -/
theorem name_mem_iff (hp : AncestralPart jobs part) {j : Job} (hj : j ∈ part) {need : String} (hneed : need ∈ j.needs) :
    need ∈ part.map (·.name) ↔ need ∈ jobs.map (·.name) := by
  constructor
  · intro h
    obtain ⟨d, hd, rfl⟩ := List.mem_map.1 h
    exact List.mem_map.2 ⟨d, hp.mem hd, rfl⟩
  · intro h
    obtain ⟨d, hd, rfl⟩ := List.mem_map.1 h
    exact List.mem_map.2 ⟨d, hp.closed d j ⟨hd, hp.mem hj, d.name, hneed, .inl rfl⟩ hj, rfl⟩

theorem precedes_iff (hp : AncestralPart jobs part) {d j : Job} (hj : j ∈ part) :
    Precedes part d j ↔ Precedes jobs d j := by
  constructor
  · rintro ⟨hd, -, need, hneed, h⟩
    exact ⟨hp.mem hd, hp.mem hj, need, hneed, by rw [← hp.name_mem_iff hj hneed]; exact h⟩
  · rintro ⟨hd, hjs, need, hneed, h⟩
    exact ⟨hp.closed d j ⟨hd, hjs, need, hneed, h⟩ hj, hj, need, hneed, by rw [hp.name_mem_iff hj hneed]; exact h⟩

theorem wellFormed (hp : AncestralPart jobs part) (h : WellFormed jobs) : WellFormed part := by
  have hnodup : (part.map (·.name)).Nodup := by
    obtain ⟨js, hperm, hsub⟩ := hp.subperm
    exact (hperm.map _).nodup_iff.1 ((hsub.map _).nodup h.names_nodup)
  refine ⟨hnodup, fun d hd j hj hm => h.only_member d (hp.mem hd) j (hp.mem hj) hm,
    fun j hj need hneed => ?_⟩
  rw [hp.name_mem_iff hj hneed]
  by_cases hname : need ∈ jobs.map (·.name)
  · exact .inl hname
  · obtain ⟨d, hd, hm⟩ := (h.needs_known j (hp.mem hj) need hneed).resolve_left hname
    exact .inr ⟨d, hp.closed d j ⟨hd, hp.mem hj, need, hneed, .inr ⟨hname, hm⟩⟩ hj, hm⟩

/-- A job of the part sees its needs alike in the part and among all jobs. -/
theorem seen_eq (hp : AncestralPart jobs part) {j : Job} (hj : j ∈ part) (R : String → JobResult) :
    ∀ need ∈ j.needs, seen part R need = seen jobs R need := by
  intro need hneed
  unfold seen
  simp only [hp.name_mem_iff hj hneed]
  split
  · rfl
  · rename_i hname
    refine JobResult.aggregate_congr fun r => ?_
    simp only [List.mem_map, mem_membersOf]
    constructor
    · rintro ⟨_, ⟨d, hd, hm, rfl⟩, rfl⟩
      exact ⟨_, ⟨d, hp.mem hd, hm, rfl⟩, rfl⟩
    · rintro ⟨_, ⟨d, hd, hm, rfl⟩, rfl⟩
      exact ⟨_, ⟨d, hp.closed d j ⟨hd, hp.mem hj, need, hneed, .inr ⟨hname, hm⟩⟩ hj, hm, rfl⟩, rfl⟩

theorem sees_eq (hp : AncestralPart jobs part) {j : Job} (hj : j ∈ part) (R : String → JobResult) :
    j.sees part R = j.sees jobs R := by
  unfold Job.sees
  congr 1
  exact List.map_congr_left fun need hneed => by rw [hp.seen_eq hj R need hneed]

/-- A part of jobs that have a graph with levels has one too. -/
theorem levels_ok (hp : AncestralPart jobs part) {g : Graph} {levels : List (List String)}
    (hg : Graph.ofJobs jobs = .ok g) (hl : g.levels = .ok levels) :
    ∃ g' levels', Graph.ofJobs part = .ok g' ∧ g'.levels = .ok levels' := by
  obtain ⟨hwf, rfl⟩ := Graph.wellFormed_of_ofJobs hg
  obtain ⟨hlay, hperm⟩ := Graph.levels_eq_ok (Graph.represents_ofEdges hwf) hl
  have hwf' := hp.wellFormed hwf
  -- the levels of all jobs number those of the part
  obtain ⟨levels', hl'⟩ := Graph.levels_of_rank (Graph.represents_ofEdges hwf') (Graph.levelOf levels) (by
    intro n hn d hd
    obtain ⟨j, hj, rfl⟩ := List.mem_map.1 hn
    obtain ⟨d, hpre, rfl⟩ := (Graph.mem_beforeName hwf' hj).1 hd
    rw [hp.precedes_iff hj] at hpre
    have hbefore : d.name ∈ Graph.beforeName jobs j.name := (Graph.mem_beforeName hwf (hp.mem hj)).2 ⟨d, hpre, rfl⟩
    have hplaced : j.name ∈ levels.flatten := hperm.mem_iff.2 (List.mem_map.2 ⟨j, hp.mem hj, rfl⟩)
    exact (hlay.levelOf_lt hbefore hplaced (Finset.notMem_empty _)).2)
  exact ⟨_, levels', Graph.ofJobs_eq_ok hwf', hl'⟩

end AncestralPart

/-! ## Solutions on a part -/

namespace Setting

variable {c : Setting} {E E' R R' : String → JobResult} {S : Job → Prop}

/-- The results solve the equations of some of the jobs, none of which can be cut off. -/
def SolvesOn (c : Setting) (S : Job → Prop) (E R : String → JobResult) : Prop :=
  ∀ j, S j → R j.name = if c.isDue R j then E j.name else .skipped

theorem isCut_eq_false (hff : c.failFast = false) (R : String → JobResult) (j : Job) : c.isCut R j = false := by
  rw [isCut, hff]; rfl

theorem Solves.solvesOn (h : c.Solves E R) (hff : c.failFast = false) (hS : ∀ j, S j → j ∈ c.jobs) :
    c.SolvesOn S E R := by
  intro j hj
  rw [h j (hS j hj), isCut_eq_false hff]
  cases c.isDue R j <;> rfl

/-- Two solutions on a set of jobs with all predecessors agree there, if the executions of its jobs
that are due in both end alike. -/
theorem SolvesOn.agree (h : c.SolvesOn S E R) (hc : c.Ascends) (hS : ∀ j, S j → j ∈ c.jobs)
    (hclosed : ∀ d j, Precedes c.jobs d j → S j → S d) (h' : c.SolvesOn S E' R')
    (hE : ∀ j, S j → c.isDue R j = true → c.isDue R' j = true → E j.name = E' j.name) :
    ∀ j, S j → R j.name = R' j.name := by
  intro j hj
  -- by strong induction on the level, as every predecessor is in an earlier one
  induction hl : Graph.levelOf c.levels j.name using Nat.strong_induction_on generalizing j with
  | _ l ih =>
    have hdue : c.isDue R j = c.isDue R' j :=
      isDue_congr (hS j hj) fun d hpre => ih _ (hl ▸ hc d j hpre) d (hclosed d j hpre hj) rfl
    rw [h j hj, h' j hj, ← hdue]
    cases hd : c.isDue R j with
    | false => rfl
    | true => exact hE j hj hd (hdue ▸ hd)

end Setting

/-! ## Runs of a part and of all jobs -/

/-- The tests and what they need. -/
def Sample.tested : List Job := (Sample.jobs.drop 1).take 3

theorem Sample.ancestralPart_tested : AncestralPart Sample.jobs Sample.tested := by
  refine ⟨((List.take_sublist ..).trans (List.drop_sublist ..)).subperm, ?_⟩
  rintro d j ⟨hd, -, need, hneed, h⟩ hj
  have hbuild : need = "build" := by
    simp only [Sample.tested, Sample.jobs, List.drop, List.take, List.mem_cons, List.not_mem_nil, or_false] at hj
    rcases hj with rfl | rfl | rfl
    · exact List.mem_singleton.1 hneed
    · exact List.mem_singleton.1 hneed
    · cases hneed
  subst hbuild
  have hname : "build" ∈ Sample.jobs.map (·.name) := by decide
  have hd' : "build" = d.name := h.resolve_right fun h => h.1 hname
  simp only [Sample.jobs, List.mem_cons, List.not_mem_nil, or_false] at hd
  rcases hd with rfl | rfl | rfl | rfl | rfl <;> simp at hd'
  simp [Sample.tested, Sample.jobs]

namespace Run

/-- Two runs that can be compared: both have workers, neither fails fast, and they are for one platform. -/
structure Comparable (o o' : RunOptions) (h h' : Host) : Prop where
  workers : ∀ w, o.workers = some w → 1 ≤ w
  workers' : ∀ w, o'.workers = some w → 1 ≤ w
  failFast : o.failFast = false
  failFast' : o'.failFast = false
  platform : platformOf o h = platformOf o' h'

section

variable {jobs : List Job} {g : Graph} {levels : List (List String)} {t : Trigger} {o : RunOptions} {h : Host}

/-- What a run that does not fail fast returns solves the equations under the ends of its calls. -/
structure Accounts (jobs : List Job) (levels : List (List String)) (t : Trigger) (o : RunOptions) (execute : Executor)
    (h : Host) (R : String → JobResult) : Prop where
  returns : ∃ h', (run jobs t o execute).on h = (.ok (levels.flatten.map fun n => (n, R n)), h')
  solves : (settingOf jobs levels t o h).SolvesOn (· ∈ jobs) (fun n => ended (outcomes jobs t o execute h n)) R
  called : ∀ j ∈ jobs, (settingOf jobs levels t o h).isDue R j = true →
    ∃ c ∈ calls jobs t o execute h, c.1 = j ∧ outcomes jobs t o execute h j.name = c.2

theorem exists_accounts (hg : Graph.ofJobs jobs = .ok g) (hl : g.levels = .ok levels)
    (ho : ∀ w, o.workers = some w → 1 ≤ w) (hff : o.failFast = false) {execute : Executor}
    (hexec : Ordinary jobs execute) :
    ∃ R, Accounts jobs levels t o execute h R := by
  obtain ⟨R, h', hrun, hR, hcalled⟩ := exists_results (t := t) (h := h) hg hl ho fun c hm =>
    settles_of_ordinary (calls_ordinary hg hl hexec c hm)
  refine ⟨R, ⟨h', hrun⟩, hR.solvesOn hff fun _ hj => hj, fun j hj hdue => ?_⟩
  have hcut : (settingOf jobs levels t o h).isCut R j = false := Setting.isCut_eq_false hff R j
  obtain ⟨c, hm, rfl⟩ := (hcalled j hj).1 (by rw [Setting.executes, hdue, hcut]; rfl)
  exact ⟨c, hm, rfl, outcomes_eq hg hl execute c hm⟩

variable {o' : RunOptions} {h' : Host} {execute execute' : Executor} {R R' : String → JobResult} {S : Job → Prop}

/-- A run of jobs and a run of a part with all predecessors agree on every set of jobs of the part with
all predecessors, if the executions of these jobs end alike in both. -/
theorem Accounts.agree {part : List Job} {levels' : List (List String)} (hg : Graph.ofJobs jobs = .ok g)
    (hl : g.levels = .ok levels) (hp : AncestralPart jobs part) (hcmp : Comparable o o' h h')
    (hR : Accounts jobs levels t o execute h R) (hR' : Accounts part levels' t o' execute' h' R')
    (hS : ∀ j, S j → j ∈ part) (hclosed : ∀ d j, Precedes jobs d j → S j → S d)
    (hends : ∀ c ∈ calls jobs t o execute h, ∀ c' ∈ calls part t o' execute' h', c.1 = c'.1 → S c.1 →
      ended c.2 = ended c'.2) : ∀ j, S j → R j.name = R' j.name := by
  have hc : (settingOf jobs levels t o h).Leveled := leveled hg hl
  -- the jobs of the part are due alike in both settings
  have hdue : ∀ j ∈ part, (settingOf part levels' t o' h').isDue R' j = (settingOf jobs levels t o h).isDue R' j := by
    intro j hj
    have hsees : j.sees (settingOf part levels' t o' h').jobs R' = j.sees (settingOf jobs levels t o h).jobs R' :=
      hp.sees_eq hj R'
    have hplatform : (settingOf part levels' t o' h').platform = (settingOf jobs levels t o h).platform :=
      hcmp.platform.symm
    rw [Setting.isDue, Setting.isDue, hsees, hplatform]; rfl
  have hall : (settingOf jobs levels t o h).SolvesOn S (fun n => ended (outcomes jobs t o execute h n)) R :=
    fun j hj => hR.solves j (hp.mem (hS j hj))
  have hpart : (settingOf jobs levels t o h).SolvesOn S (fun n => ended (outcomes part t o' execute' h' n)) R' :=
    fun j hj => by rw [← hdue j (hS j hj)]; exact hR'.solves j (hS j hj)
  refine hall.agree hc.ascends (fun j hj => hp.mem (hS j hj)) hclosed hpart fun j hj hd hd' => ?_
  obtain ⟨c, hm, rfl, hx⟩ := hR.called j (hp.mem (hS j hj)) hd
  obtain ⟨c', hm', hcj, hx'⟩ := hR'.called c.1 (hS _ hj) (by rw [hdue _ (hS _ hj)]; exact hd')
  rw [hx, hx']
  exact hends c hm c' hm' hcj.symm hj

end

/-- A part of the jobs with all predecessors is accepted and has levels, and when it is run alone each
of its jobs has the result that it has in a run of all jobs, if the executions of each of them come to
the same end in both runs. So the result of a job in two runs of all jobs is the same if the
executions of its ancestors, and its own, come to the same end. -/
theorem results_of_ancestors {jobs : List Job} {g : Graph} {levels : List (List String)}
    (hg : Graph.ofJobs jobs = .ok g) (hl : g.levels = .ok levels) (t : Trigger) :
    (∀ part, AncestralPart jobs part → ∃ g' levels', Graph.ofJobs part = .ok g' ∧ g'.levels = .ok levels' ∧
      ∀ o o' h h', Comparable o o' h h' → ∀ execute execute', Ordinary jobs execute → Ordinary part execute' →
        (∀ c ∈ calls jobs t o execute h, ∀ c' ∈ calls part t o' execute' h', c.1 = c'.1 → ended c.2 = ended c'.2) →
        ∃ (R R' : String → JobResult) (h₁ h₁' : Host),
          (run jobs t o execute).on h = (.ok (levels.flatten.map fun n => (n, R n)), h₁) ∧
          (run part t o' execute').on h' = (.ok (levels'.flatten.map fun n => (n, R' n)), h₁') ∧
          ∀ j ∈ part, R j.name = R' j.name) ∧
      ∀ o o' h h', Comparable o o' h h' → ∀ execute execute', Ordinary jobs execute → Ordinary jobs execute' →
        ∃ (R R' : String → JobResult) (h₁ h₁' : Host),
          (run jobs t o execute).on h = (.ok (levels.flatten.map fun n => (n, R n)), h₁) ∧
          (run jobs t o' execute').on h' = (.ok (levels.flatten.map fun n => (n, R' n)), h₁') ∧
          ∀ j ∈ jobs, (∀ c ∈ calls jobs t o execute h, ∀ c' ∈ calls jobs t o' execute' h', c.1 = c'.1 →
            Relation.ReflTransGen (Precedes jobs) c.1 j → ended c.2 = ended c'.2) → R j.name = R' j.name := by
  refine ⟨fun part hp => ?_, fun o o' h h' hcmp execute execute' hexec hexec' => ?_⟩
  · obtain ⟨g', levels', hg', hl'⟩ := hp.levels_ok hg hl
    refine ⟨g', levels', hg', hl', fun o o' h h' hcmp execute execute' hexec hexec' hends => ?_⟩
    obtain ⟨R, hR⟩ := exists_accounts (t := t) (h := h) hg hl hcmp.workers hcmp.failFast hexec
    obtain ⟨R', hR'⟩ := exists_accounts (t := t) (h := h') hg' hl' hcmp.workers' hcmp.failFast' hexec'
    obtain ⟨h₁, hrun⟩ := hR.returns
    obtain ⟨h₁', hrun'⟩ := hR'.returns
    exact ⟨R, R', h₁, h₁', hrun, hrun', hR.agree hg hl hp hcmp hR' (fun _ hj => hj) hp.closed
      fun c hm c' hm' hcj _ => hends c hm c' hm' hcj⟩
  · -- the ancestors of a job, and the job, are a set with all predecessors
    obtain ⟨R, hR⟩ := exists_accounts (t := t) (h := h) hg hl hcmp.workers hcmp.failFast hexec
    obtain ⟨R', hR'⟩ := exists_accounts (t := t) (h := h') hg hl hcmp.workers' hcmp.failFast' hexec'
    obtain ⟨h₁, hrun⟩ := hR.returns
    obtain ⟨h₁', hrun'⟩ := hR'.returns
    refine ⟨R, R', h₁, h₁', hrun, hrun', fun j hj hends => ?_⟩
    refine hR.agree (S := (Relation.ReflTransGen (Precedes jobs) · j)) hg hl (.refl jobs) hcmp hR' (fun d hd => ?_)
      (fun d k hpre hk => .head hpre hk) hends j .refl
    rcases hd.cases_head with rfl | ⟨k, hpre, -⟩
    · exact hj
    · exact hpre.1

/-- The tests do not notice that the check fails. -/
theorem results_of_ancestors_sample :
    ∃ g' levels', Graph.ofJobs Sample.tested = .ok g' ∧ g'.levels = .ok levels' ∧
      ∃ (R R' : String → JobResult) (h₁ h₁' : Host),
        (run Sample.jobs Sample.trigger {} Sample.execute).on Sample.host =
          (.ok (Sample.levels.flatten.map fun n => (n, R n)), h₁) ∧
        (run Sample.tested Sample.trigger {} fun _ => pure .success).on Sample.host =
          (.ok (levels'.flatten.map fun n => (n, R' n)), h₁') ∧
        ∀ j ∈ Sample.tested, R j.name = R' j.name := by
  obtain ⟨g', levels', hg', hl', hruns⟩ :=
    (results_of_ancestors Sample.ofJobs_jobs Sample.levels_jobs Sample.trigger).1 _ Sample.ancestralPart_tested
  refine ⟨g', levels', hg', hl', hruns {} {} Sample.host Sample.host ⟨nofun, nofun, rfl, rfl, rfl⟩ _ _ ordinary_sample
    (fun _ _ _ => .inl rfl) fun c hm c' hm' hcj => ?_⟩
  obtain ⟨-, h, hx⟩ := calls_real Sample.ofJobs_jobs Sample.levels_jobs c hm
  obtain ⟨hj', h', hx'⟩ := calls_real hg' hl' c' hm'
  simp only [Sample.tested, Sample.jobs, List.drop, List.take, List.mem_cons, List.not_mem_nil, or_false] at hj'
  rw [← hx, ← hx', hcj]
  rcases hj' with hj | hj | hj <;> rw [hj] <;> rfl

end Run

end CiPipeline
