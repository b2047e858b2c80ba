import CiPipeline.Proofs.Run.Interruption
import CiPipeline.Proofs.Run.Journal

/-
The discipline of a run: `run_disciplined`. Its executions are told by its calls, and no order of the
outcomes within a level matters for which they are: a job is executed once at most, after all executed
jobs that precede it, and exactly if the results of the earlier levels ask for it. So what comes of a
job keeps no other job of its level from being executed, not even if it is an interruption; but that
ends the run with the level.
-/

namespace CiPipeline

/-- The levels of the names in their order do not descend. -/
theorem Graph.pairwise_levelOf_le {levels : List (List String)} (hnd : levels.flatten.Nodup) :
    levels.flatten.Pairwise fun n m => Graph.levelOf levels n ≤ Graph.levelOf levels m := by
  rw [List.pairwise_iff_getElem]
  intro i k hi hk hlt
  by_contra hgt
  have hidx := Graph.idxOf_lt_of_levelOf_lt (List.getElem_mem hk) (Nat.lt_of_not_le hgt)
  rw [hnd.idxOf_getElem, hnd.idxOf_getElem] at hidx
  omega

namespace Run

/-- An executor that assumes no results: with each of the jobs it comes to success or to a fault. -/
def Unassuming (jobs : List Job) (execute : Executor) : Prop :=
  ∀ j ∈ jobs, ∀ h r, ((execute j).on h).1 = .ok r → r = .success

section

variable {jobs : List Job} {g : Graph} {levels : List (List String)} {t : Trigger} {o : RunOptions} {h : Host}

theorem ended_of_unassuming {x : Except Fault JobResult} (hx : ∀ r, x = .ok r → r = .success) :
    ended x = .success ∨ ended x = .failure := by
  cases x with
  | ok r => exact .inl (hx r rfl)
  | error f => exact .inr rfl

/-- No call is of an earlier level than a call before it. -/
theorem pairwise_calls (hg : Graph.ofJobs jobs = .ok g) (hl : g.levels = .ok levels) (execute : Executor) :
    (calls jobs t o execute h).Pairwise fun c d =>
      Graph.levelOf levels c.1.name ≤ Graph.levelOf levels d.1.name := by
  have hc : (settingOf jobs levels t o h).Leveled := leveled hg hl
  have hsub := calls_sublist (t := t) (o := o) (h := h) hg hl execute
  have hnames := (Graph.pairwise_levelOf_le hc.layered.nodup_flatten).sublist hsub
  rwa [List.pairwise_map] at hnames

theorem mem_results {R : String → JobResult} {n : String} (hn : n ∈ levels.flatten) {r : JobResult} :
    (n, r) ∈ levels.flatten.map (fun n => (n, R n)) ↔ R n = r := by
  rw [List.mem_map]
  constructor
  · rintro ⟨m, -, heq⟩
    cases heq
    rfl
  · rintro rfl
    exact ⟨n, hn, rfl⟩

theorem courseJobs_eq_nil {s : RunScene} {workers : Int} (hw : workers < 1) (E : Outcomes) :
    ∀ (jss : List (List Job)) (p : Progress), courseJobs s workers E jss p = []
  | [], _ => rfl
  | js :: jss, p => by
    rw [courseJobs, levelJobs, if_pos hw, List.nil_append]
    split
    · exact courseJobs_eq_nil hw E jss _
    · rfl

/-- A run of ordinary executions that does not return has no workers, and executes nothing. -/
theorem calls_eq_nil (hg : Graph.ofJobs jobs = .ok g) (hl : g.levels = .ok levels) {execute : Executor}
    (hexec : Ordinary jobs execute) {f : Fault} (hrun : ((run jobs t o execute).on h).1 = .error f) :
    calls jobs t o execute h = [] := by
  by_cases hw : workers o h < 1
  · rw [← List.map_eq_nil_iff, (run_eq_course hg hl t o execute h (outcomes_eq hg hl execute)).2.1]
    exact courseJobs_eq_nil hw _ _ _
  · have ho : ∀ w, o.workers = some w → 1 ≤ w := by
      intro w hsome
      rw [workers, hsome, Option.getD_some] at hw
      omega
    obtain ⟨rs, h', hok⟩ := run_ok hg hl ho fun c hm => settles_of_ordinary (calls_ordinary hg hl hexec c hm)
    rw [hok] at hrun
    cases hrun

/-- The discipline of a run. Each job is executed once at most, after all executed jobs that precede
it, and if the run returns then exactly those were that succeeded or failed. Which jobs of a level are
executed is up to the results `R` of the earlier levels; what comes of its own executions has no part
in that. An interruption ends the run with its level, as the first one in the order of the handling;
this order could be any other. -/
structure Disciplined (jobs : List Job) (levels : List (List String)) (t : Trigger) (o : RunOptions)
    (execute : Executor) (h : Host) : Prop where
  once : ((calls jobs t o execute h).map (·.1.name)).Nodup
  real : ∀ c ∈ calls jobs t o execute h, c.1 ∈ jobs ∧ ∃ h₁, ((execute c.1).on h₁).1 = c.2
  began : (∀ j ∈ jobs, (execute j).BeginsNone) →
    ((run jobs t o execute).on h).2.began = h.began ++ (calls jobs t o execute h).map (·.1.name)
  after : ∀ before c later, calls jobs t o execute h = before ++ c :: later →
    ∀ d ∈ calls jobs t o execute h, Precedes jobs d.1 c.1 → d ∈ before
  executed : ∀ rs, ((run jobs t o execute).on h).1 = .ok rs → ∀ j ∈ jobs,
    ((∃ c ∈ calls jobs t o execute h, c.1 = j) ↔ (j.name, .success) ∈ rs ∨ (j.name, .failure) ∈ rs)
  level : ∃ R, ∀ c ∈ calls jobs t o execute h,
    (settingOf jobs levels t o h).SolvesBefore (Graph.levelOf levels c.1.name)
      (fun n => ended (outcomes jobs t o execute h n)) R ∧
    ∀ R' : String → JobResult,
      (∀ d ∈ jobs, Graph.levelOf levels d.name < Graph.levelOf levels c.1.name → R' d.name = R d.name) →
      ∀ j ∈ jobs, Graph.levelOf levels j.name = Graph.levelOf levels c.1.name →
        ((settingOf jobs levels t o h).executes R' j = true ↔ ∃ c' ∈ calls jobs t o execute h, c'.1 = j)
  returns : (∀ w, o.workers = some w → 1 ≤ w) → (∀ c ∈ calls jobs t o execute h, interruption? c.2 = none) →
    ∃ rs h', (run jobs t o execute).on h = (.ok rs, h')
  interrupted : ∀ c ∈ calls jobs t o execute h, interruption? c.2 ≠ none →
    (∃ f, firstInterruption? ((calls jobs t o execute h).filter fun d =>
        Graph.levelOf levels d.1.name = Graph.levelOf levels c.1.name) = some f ∧
      ((run jobs t o execute).on h).1 = .error f) ∧
    ∀ d ∈ calls jobs t o execute h, Graph.levelOf levels d.1.name ≤ Graph.levelOf levels c.1.name
  handled : ∀ c ∈ calls jobs t o execute h, interruption? c.2 ≠ none →
    ∀ cs, cs.Perm ((calls jobs t o execute h).filter fun d =>
        Graph.levelOf levels d.1.name = Graph.levelOf levels c.1.name) →
      ∃ f, firstInterruption? cs = some f ∧ ∀ p h₁, ((cs.foldlM (conclude o) p).on h₁).1 = .error f

theorem call_before (hg : Graph.ofJobs jobs = .ok g) (hl : g.levels = .ok levels) {execute : Executor}
    {before later : List Call} {c d : Call} (heq : calls jobs t o execute h = before ++ c :: later)
    (hd : d ∈ calls jobs t o execute h) (hpre : Precedes jobs d.1 c.1) : d ∈ before := by
  have hc : (settingOf jobs levels t o h).Leveled := leveled hg hl
  have hlt : Graph.levelOf levels d.1.name < Graph.levelOf levels c.1.name := hc.ascends d.1 c.1 hpre
  have hordered := pairwise_calls (t := t) (o := o) (h := h) hg hl execute
  rw [heq, List.pairwise_append, List.pairwise_cons] at hordered
  rw [heq, List.mem_append, List.mem_cons] at hd
  rcases hd with hd | rfl | hd
  · exact hd
  · exact absurd hlt (Nat.lt_irrefl _)
  · exact absurd hlt (Nat.not_lt_of_le (hordered.2.1.1 d hd))

theorem called_iff_result (hg : Graph.ofJobs jobs = .ok g) (hl : g.levels = .ok levels) {execute : Executor}
    (hexec : Unassuming jobs execute) {rs : List (String × JobResult)}
    (hrun : ((run jobs t o execute).on h).1 = .ok rs) {j : Job} (hj : j ∈ jobs) :
    (∃ c ∈ calls jobs t o execute h, c.1 = j) ↔ (j.name, .success) ∈ rs ∨ (j.name, .failure) ∈ rs := by
  have hc : (settingOf jobs levels t o h).Leveled := leveled hg hl
  obtain ⟨R, rfl, hR, hcalled⟩ := run_solves hg hl execute hrun
  have hplaced : j.name ∈ levels.flatten := hc.mem_flatten hj
  rw [mem_results hplaced, mem_results hplaced, ← hcalled j hj]
  rcases hR.cases hj with ⟨hdue, hr⟩ | ⟨-, hcut, hr⟩ | ⟨hexecutes, hr⟩
  · rw [hr, Setting.executes, hdue]
    simp
  · rw [hr, Setting.executes, hcut]
    simp
  · obtain ⟨c, hm, rfl⟩ := (hcalled j hj).1 hexecutes
    obtain ⟨-, h₁, hx⟩ := calls_real hg hl c hm
    rw [hr, outcomes_eq hg hl execute c hm]
    exact iff_of_true hexecutes (ended_of_unassuming fun r hok => hexec c.1 hj h₁ r (hx.trans hok))

theorem level_decided (hg : Graph.ofJobs jobs = .ok g) (hl : g.levels = .ok levels) (execute : Executor) :
    ∃ R, ∀ c ∈ calls jobs t o execute h,
      (settingOf jobs levels t o h).SolvesBefore (Graph.levelOf levels c.1.name)
        (fun n => ended (outcomes jobs t o execute h n)) R ∧
      ∀ R' : String → JobResult,
        (∀ d ∈ jobs, Graph.levelOf levels d.name < Graph.levelOf levels c.1.name → R' d.name = R d.name) →
        ∀ j ∈ jobs, Graph.levelOf levels j.name = Graph.levelOf levels c.1.name →
          ((settingOf jobs levels t o h).executes R' j = true ↔ ∃ c' ∈ calls jobs t o execute h, c'.1 = j) := by
  have hc : (settingOf jobs levels t o h).Leveled := leveled hg hl
  obtain ⟨R, hR⟩ := calls_decides hg hl t o execute h
  refine ⟨R, fun c hm => ⟨hR.solves c.1 (List.mem_map_of_mem hm), fun R' hsame j hj hlevel => ?_⟩⟩
  rw [Setting.executes_congr hc.ascends hj fun d hd hlt => hsame d hd (lt_of_lt_of_eq hlt hlevel),
    hR.executes c.1 (List.mem_map_of_mem hm) j hj hlevel.le, List.mem_map]

theorem run_interrupted_level (hg : Graph.ofJobs jobs = .ok g) (hl : g.levels = .ok levels) {execute : Executor}
    {c : Call} (hm : c ∈ calls jobs t o execute h) (hne : interruption? c.2 ≠ none) :
    (∃ f, firstInterruption? ((calls jobs t o execute h).filter fun d =>
        Graph.levelOf levels d.1.name = Graph.levelOf levels c.1.name) = some f ∧
      ((run jobs t o execute).on h).1 = .error f) ∧
    ∀ d ∈ calls jobs t o execute h, Graph.levelOf levels d.1.name ≤ Graph.levelOf levels c.1.name := by
  cases hfirst : firstInterruption? (calls jobs t o execute h) with
  | none => exact absurd (firstInterruption?_eq_none.1 hfirst c hm) hne
  | some f =>
    obtain ⟨hrun, hlevels⟩ := run_interrupted hg hl hfirst
    refine ⟨⟨f, ?_, hrun⟩, hlevels c hm hne⟩
    -- an interruption is of no earlier level either, as this one is of none later than it
    rw [firstInterruption?_filter fun d hd hne' => ?_, hfirst]
    exact decide_eq_true (le_antisymm (hlevels c hm hne d hd) (hlevels d hd hne' c hm))

end

/-- A run keeps its discipline with every executor that assumes no results. -/
theorem run_disciplined {jobs : List Job} {g : Graph} {levels : List (List String)} (hg : Graph.ofJobs jobs = .ok g)
    (hl : g.levels = .ok levels) (t : Trigger) (o : RunOptions) (execute : Executor)
    (hexec : Unassuming jobs execute) (h : Host) : Disciplined jobs levels t o execute h where
  once := nodup_calls hg hl execute
  real := calls_real hg hl
  began hbegins := began_run hg hl hbegins h
  after _ _ _ heq _ hd hpre := call_before hg hl heq hd hpre
  executed _ hrun _ hj := called_iff_result hg hl hexec hrun hj
  level := level_decided hg hl execute
  returns ho hnone := run_ok hg hl ho fun c hm => settles_iff.2 (hnone c hm)
  interrupted _ hm hne := run_interrupted_level hg hl hm hne
  handled c hm hne cs hperm := by
    have hmem : c ∈ cs := hperm.mem_iff.2 (List.mem_filter.2 ⟨hm, decide_eq_true rfl⟩)
    exact exists_handled hmem hne o

end Run

/-- The check is interrupted, and everything else fails. -/
def Sample.interrupting : Executor := fun j => .fail (if j.name = "lint" then .interrupted else .os .denied j.name)

namespace Run

/-- A failure and an interruption in one level. -/
theorem run_disciplined_sample :
    Unassuming Sample.jobs Sample.interrupting ∧
      Disciplined Sample.jobs Sample.levels Sample.trigger {} Sample.interrupting Sample.host := by
  have hexec : Unassuming Sample.jobs Sample.interrupting := fun _ _ _ _ hok => by cases hok
  exact ⟨hexec, run_disciplined Sample.ofJobs_jobs Sample.levels_jobs _ _ _ hexec _⟩

end Run

end CiPipeline
