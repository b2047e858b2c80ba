import CiPipeline.Plan
import CiPipeline.Proofs.Run.Journal

/-
Plans predict runs. A plan never fails fast and takes each job to end as assumed, so its results are
the solution of the equations under the assumptions (`plan_eq`). The results of a run solve these
equations when the assumptions are right for the jobs that it executed; and they do so when they are
assumed themselves, even those of the jobs that were cancelled.
-/

namespace CiPipeline

/-! ## Solutions that are assumed -/

namespace Setting

variable {c : Setting} {E R : String → JobResult}

/-- Results that solve the equations do so as assumptions too, whether or not jobs were cancelled for them. -/
theorem Solves.assumed (h : c.Solves E R) : ({ c with failFast := false } : Setting).Solves R R := by
  intro j hj
  have hj' := h j hj
  have hdue : ({ c with failFast := false } : Setting).isDue R j = c.isDue R j := rfl
  have hcut : ({ c with failFast := false } : Setting).isCut R j = false := rfl
  rw [hdue, hcut]
  cases hd : c.isDue R j with
  | true => rfl
  | false => rw [hd] at hj'; exact hj'

/-- Results that solve the equations are endings, if the executions have such results. -/
theorem Solves.mem_all (h : c.Solves E R) {j : Job} (hj : j ∈ c.jobs)
    (hE : c.executes R j = true → E j.name ∈ JobResult.all) : R j.name ∈ JobResult.all := by
  rcases h.cases hj with ⟨-, hR⟩ | ⟨-, -, hR⟩ | ⟨hexec, hR⟩
  · rw [hR]; decide
  · rw [hR]; decide
  · rw [hR]; exact hE hexec

end Setting

namespace Plan

open CiPipeline.Run

/-! ## The results of a plan -/

/-- The result assumed for a name. -/
def Assumptions.at (a : Assumptions) (n : String) : JobResult := (a.get? n).getD .success

/-- The options of the run that a plan is. -/
def options (platform : Option String) (printPlan : Bool) : RunOptions where
  workers := some 1
  platform := platform
  printPlan := printPlan
  quiet := true

theorem bad?_eq_none {a : Assumptions} (ha : ∀ e ∈ a.entries, e.2 ∈ JobResult.all) : a.bad? = none := by
  refine List.find?_eq_none.2 fun e he => ?_
  rw [Bool.not_eq_true', Bool.not_eq_false]
  exact (JobResult.isEnding_iff_mem_all _).2 (ha e he)

theorem plan_eq_run {jobs : List Job} {t : Trigger} {a : Assumptions} (ha : ∀ e ∈ a.entries, e.2 ∈ JobResult.all)
    (platform : Option String) (printPlan : Bool) :
    plan jobs t a platform printPlan = run jobs t (options platform printPlan) (pretend a) := by
  unfold plan
  rw [bad?_eq_none ha]
  rfl

section

variable {jobs : List Job} {g : Graph} {levels : List (List String)} {t : Trigger} {a : Assumptions}
  {platform : Option String} {printPlan : Bool} {h : Host}

/-- A plan returns a solution of the equations under its assumptions, and begins the jobs that this
solution asks for. -/
theorem exists_planned (hg : Graph.ofJobs jobs = .ok g) (hl : g.levels = .ok levels)
    (ha : ∀ e ∈ a.entries, e.2 ∈ JobResult.all) (t : Trigger) (platform : Option String) (printPlan : Bool)
    (h : Host) : ∃ (R : String → JobResult) (h' : Host) (ns : List String),
      (plan jobs t a platform printPlan).on h = (.ok (levels.flatten.map fun n => (n, R n)), h') ∧
      (settingOf jobs levels t (options platform printPlan) h).Solves a.at R ∧
      h'.began = h.began ++ ns ∧
      ∀ j ∈ jobs, (settingOf jobs levels t (options platform printPlan) h).executes R j = true ↔ j.name ∈ ns := by
  rw [plan_eq_run ha]
  have ho : ∀ w, (options platform printPlan).workers = some w → 1 ≤ w := fun w hw => by cases hw; exact le_rfl
  have hc : (settingOf jobs levels t (options platform printPlan) h).Leveled := leveled hg hl
  have hcalled : ∀ c ∈ calls jobs t (options platform printPlan) (pretend a) h, c.2 = .ok (a.at c.1.name) := by
    intro c hm
    obtain ⟨-, h₁, hx⟩ := calls_real hg hl c hm
    rw [← hx]; rfl
  obtain ⟨R, h', hrun, hR, hexec⟩ := exists_results hg hl ho fun c hm => by rw [hcalled c hm]; rfl
  have hbegan : ((run jobs t (options platform printPlan) (pretend a)).on h).2.began = _ :=
    began_run hg hl (fun _ _ => Act.beginsNone_pure _) h
  rw [hrun] at hbegan
  refine ⟨R, h', _, hrun, hR.congr fun j hj he => ?_, hbegan, fun j hj => ?_⟩
  · obtain ⟨c, hm, rfl⟩ := (hexec j hj).1 he
    rw [outcomes_eq hg hl (pretend a) c hm, hcalled c hm]; rfl
  · rw [hexec j hj, List.mem_map]
    constructor
    · rintro ⟨c, hm, rfl⟩
      exact ⟨c, hm, rfl⟩
    · rintro ⟨c, hm, hname⟩
      exact ⟨c, hm, List.inj_on_of_nodup_map hc.wellFormed.names_nodup (calls_real hg hl c hm).1 hj hname⟩

/-- The results of a plan are the solution of the equations under its assumptions. -/
theorem plan_eq (hg : Graph.ofJobs jobs = .ok g) (hl : g.levels = .ok levels)
    (ha : ∀ e ∈ a.entries, e.2 ∈ JobResult.all) {R : String → JobResult}
    (hR : (settingOf jobs levels t (options platform printPlan) h).Solves a.at R) :
    ∃ h', (plan jobs t a platform printPlan).on h = (.ok (levels.flatten.map fun n => (n, R n)), h') := by
  have hc : (settingOf jobs levels t (options platform printPlan) h).Leveled := leveled hg hl
  obtain ⟨R', h', -, hrun, hR', -⟩ := exists_planned hg hl ha t platform printPlan h
  -- both solve the equations under the assumptions, so they are the same on all names
  refine ⟨h', ?_⟩
  rw [hrun]
  congr 2
  refine List.map_congr_left fun n hn => ?_
  obtain ⟨j, hj, rfl⟩ := List.mem_map.1 (hc.perm.mem_iff.1 hn)
  rw [hR'.unique hc.ascends hR j hj]

/-! ## Plans and runs -/

theorem at_results {levels : List (List String)} (R : String → JobResult) {n : String} (hn : n ∈ levels.flatten) :
    Assumptions.at ⟨levels.flatten.map fun n => (n, R n)⟩ n = R n := by
  rw [Assumptions.at, Dict.get?_mk_map, if_pos hn]
  rfl

theorem mem_all_ended {x : Except Fault JobResult}
    (h : x = .ok .success ∨ ∃ f, x = .error f ∧ f.isOrdinary = true) : ended x ∈ JobResult.all := by
  rcases h with rfl | ⟨f, rfl, -⟩
  · decide
  · exact (show JobResult.failure ∈ JobResult.all by decide)

/-- A plan for the platform of a run gives the results of the run if it is made under these very
results, or else, if the run does not fail fast, under any assumptions that are right for the jobs
that it executes. -/
theorem plan_predicts_run (hg : Graph.ofJobs jobs = .ok g) (hl : g.levels = .ok levels) (t : Trigger) (o : RunOptions)
    (ho : ∀ w, o.workers = some w → 1 ≤ w) (execute : Executor) (hexec : Ordinary jobs execute) (h h' : Host)
    (hplatform : platformOf o h' = platformOf o h) (printPlan : Bool) :
    ∃ rs h₁, (run jobs t o execute).on h = (.ok rs, h₁) ∧
      (∃ h₂, (plan jobs t ⟨rs⟩ o.platform printPlan).on h' = (.ok rs, h₂)) ∧
      (o.failFast = false → ∀ a : Assumptions, (∀ e ∈ a.entries, e.2 ∈ JobResult.all) →
        (∀ c ∈ calls jobs t o execute h, a.of c.1 = ended c.2) →
        ∃ h₂, (plan jobs t a o.platform printPlan).on h' = (.ok rs, h₂)) := by
  have hc : (settingOf jobs levels t o h).Leveled := leveled hg hl
  have hplan : settingOf jobs levels t (options o.platform printPlan) h' =
      { settingOf jobs levels t o h with failFast := false } := by
    rw [settingOf, settingOf, ← hplatform]; rfl
  have hends : ∀ c ∈ calls jobs t o execute h, c.2 = .ok .success ∨ ∃ f, c.2 = .error f ∧ f.isOrdinary = true :=
    calls_ordinary hg hl hexec
  obtain ⟨R, h₁, hrun, hR, hcalled⟩ := exists_results hg hl ho fun c hm => settles_of_ordinary (hends c hm)
  refine ⟨_, h₁, hrun, ?_, fun hff a ha hright => ?_⟩
  · -- the results of the run as assumptions
    refine plan_eq hg hl (fun e he => ?_) ?_
    · obtain ⟨n, hn, rfl⟩ := List.mem_map.1 he
      obtain ⟨j, hj, rfl⟩ := List.mem_map.1 (hc.perm.mem_iff.1 hn)
      refine hR.mem_all hj fun hx => ?_
      obtain ⟨c, hm, rfl⟩ := (hcalled j hj).1 hx
      rw [outcomes_eq hg hl execute c hm]
      exact mem_all_ended (hends c hm)
    · rw [hplan]
      exact hR.assumed.congr fun j hj _ => at_results R (hc.mem_flatten hj)
  · -- assumptions that are right for what was executed; the others are never looked at
    refine plan_eq hg hl ha ?_
    rw [hplan, ← hff]
    refine hR.congr fun j hj hx => ?_
    obtain ⟨c, hm, rfl⟩ := (hcalled j hj).1 hx
    rw [outcomes_eq hg hl execute c hm]
    exact hright c hm

end

/-- The check fails in a run that goes on after it; that is assumed in a plan, with more about what no run executes. -/
theorem plan_predicts_run_sample :
    ∃ rs h₁, (run Sample.jobs Sample.trigger {} Sample.execute).on Sample.host = (.ok rs, h₁) ∧
      (∃ h₂, (plan Sample.jobs Sample.trigger ⟨rs⟩ none true).on Sample.host = (.ok rs, h₂)) ∧
      ∃ h₂, (plan Sample.jobs Sample.trigger ⟨[("lint", .failure), ("test", .cancelled), ("docs", .skipped)]⟩ none
        true).on Sample.host = (.ok rs, h₂) := by
  obtain ⟨rs, h₁, hrun, hself, hright⟩ := plan_predicts_run Sample.ofJobs_jobs Sample.levels_jobs Sample.trigger {}
    nofun Sample.execute ordinary_sample Sample.host Sample.host rfl true
  refine ⟨rs, h₁, hrun, hself, hright rfl _ (by decide) fun c hm => ?_⟩
  obtain ⟨hj, h, hx⟩ := calls_real Sample.ofJobs_jobs Sample.levels_jobs c hm
  rw [← hx]
  simp only [Sample.jobs, List.mem_cons, List.not_mem_nil, or_false] at hj
  rcases hj with hj | hj | hj | hj | hj <;> rw [hj] <;> rfl

end Plan

end CiPipeline
