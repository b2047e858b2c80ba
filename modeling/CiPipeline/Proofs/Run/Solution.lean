import CiPipeline.Proofs.Run.Course

/-
Whole runs solve the equations of their settings. The induction is on the levels that are left
(`course_levels`): the results of the levels that are done stay, the run counts as failed exactly
if one of them is a failure, and so each level finds the verdicts that the final results ask for.
-/

namespace CiPipeline

/-! ## The jobs of some names -/

namespace Run

theorem mem_of_mem_named {jobs : List Job} {ns : List String} {j : Job} (h : j ∈ named jobs ns) :
    j ∈ jobs ∧ j.name ∈ ns := by
  obtain ⟨n, hn, hfind⟩ := List.mem_filterMap.1 h
  have hname : j.name = n := by simpa using List.find?_some hfind
  exact ⟨List.mem_of_find?_eq_some hfind, hname ▸ hn⟩

theorem find?_name {jobs : List Job} (hnd : (jobs.map (·.name)).Nodup) {j : Job} (hj : j ∈ jobs) :
    jobs.find? (·.name = j.name) = some j := by
  cases hf : jobs.find? (·.name = j.name) with
  | none => exact absurd (List.find?_eq_none.1 hf j hj) (by simp)
  | some j' =>
    have hname : j'.name = j.name := by simpa using List.find?_some hf
    rw [List.inj_on_of_nodup_map hnd (List.mem_of_find?_eq_some hf) hj hname]

theorem mem_named {jobs : List Job} (hnd : (jobs.map (·.name)).Nodup) {ns : List String} {j : Job} :
    j ∈ named jobs ns ↔ j ∈ jobs ∧ j.name ∈ ns :=
  ⟨mem_of_mem_named, fun ⟨hj, hn⟩ => List.mem_filterMap.2 ⟨j.name, hn, find?_name hnd hj⟩⟩

theorem map_name_named {jobs : List Job} : ∀ {ns : List String}, ns ⊆ jobs.map (·.name) →
    (named jobs ns).map (·.name) = ns
  | [], _ => rfl
  | n :: ns, h => by
    obtain ⟨j, hj, hname⟩ := List.mem_map.1 (h (List.mem_cons_self ..))
    have hrest := map_name_named fun m hm => h (List.mem_cons_of_mem n hm)
    cases hf : jobs.find? (·.name = n) with
    | none => exact absurd (List.find?_eq_none.1 hf j hj) (by simp [hname])
    | some j' =>
      have hname' : j'.name = n := by simpa using List.find?_some hf
      unfold named at hrest ⊢
      rw [List.filterMap_cons, hf, List.map_cons, hrest, hname']

theorem named_flatten (jobs : List Job) (levels : List (List String)) :
    (levels.map (named jobs)).flatten = named jobs levels.flatten :=
  List.filterMap_flatten.symm

end Run

/-! ## Levels that are done and levels that are left -/

/-- A name stands in one of the first levels exactly if it is one of theirs. -/
theorem Graph.levelOf_append_lt {left : List (List String)} {n : String} :
    ∀ {done : List (List String)}, Graph.levelOf (done ++ left) n < done.length ↔ n ∈ done.flatten
  | [] => by simp
  | level :: done => by
    rw [List.cons_append, List.flatten_cons, List.mem_append, List.length_cons]
    by_cases hn : n ∈ level
    · rw [Graph.levelOf_cons_of_mem hn]
      exact iff_of_true (Nat.zero_lt_succ _) (.inl hn)
    · rw [Graph.levelOf_cons_of_not_mem hn, Nat.succ_lt_succ_iff, Graph.levelOf_append_lt]
      exact ⟨.inr, fun h => h.resolve_left hn⟩

theorem Graph.levelOf_append_of_mem {level : List String} {left : List (List String)} {n : String} (hn : n ∈ level) :
    ∀ {done : List (List String)}, n ∉ done.flatten → Graph.levelOf (done ++ level :: left) n = done.length
  | [], _ => Graph.levelOf_cons_of_mem hn
  | l :: done, h => by
    rw [List.flatten_cons, List.mem_append, not_or] at h
    rw [List.cons_append, Graph.levelOf_cons_of_not_mem h.1, Graph.levelOf_append_of_mem hn h.2, List.length_cons]

namespace Setting

/-- A setting whose jobs are well formed and whose levels are those of their precedence. -/
structure Leveled (c : Setting) : Prop where
  wellFormed : WellFormed c.jobs
  layered : Graph.Layered (c.jobs.map (·.name)) (Graph.beforeName c.jobs) ∅ c.levels
  perm : c.levels.flatten.Perm (c.jobs.map (·.name))

variable {c : Setting}

theorem Leveled.mem_flatten (hc : c.Leveled) {j : Job} (hj : j ∈ c.jobs) : j.name ∈ c.levels.flatten :=
  hc.perm.mem_iff.2 (List.mem_map.2 ⟨j, hj, rfl⟩)

theorem Leveled.ascends (hc : c.Leveled) : c.Ascends := by
  intro d j hpre
  have hd : d.name ∈ Graph.beforeName c.jobs j.name := (Graph.mem_beforeName hc.wellFormed hpre.2.1).2 ⟨d, hpre, rfl⟩
  exact (hc.layered.levelOf_lt hd (hc.mem_flatten hpre.2.1) (Finset.notMem_empty _)).2

/-- The first of the levels that are left holds jobs that are not placed and have all before them placed. -/
theorem Leveled.follows (hc : c.Leveled) {placed : Finset String} {level : List String} {left : List (List String)}
    (hlay : Graph.Layered (c.jobs.map (·.name)) (Graph.beforeName c.jobs) placed (level :: left)) :
    c.Follows placed (Run.named c.jobs level) ∧ (Run.named c.jobs level).map (·.name) = level := by
  obtain ⟨-, hnd, hmem, -⟩ := hlay
  have hnames : (Run.named c.jobs level).map (·.name) = level :=
    Run.map_name_named fun n hn => ((hmem n).1 hn).1
  refine ⟨⟨fun j hj => (Run.mem_of_mem_named hj).1, fun j hj => ?_, fun j hj d hpre => ?_,
    by rw [hnames]; exact hnd⟩, hnames⟩
  · exact ((hmem j.name).1 (Run.mem_of_mem_named hj).2).2.1
  · obtain ⟨hjobs, hlevel⟩ := Run.mem_of_mem_named hj
    exact ((hmem j.name).1 hlevel).2.2 ((Graph.mem_beforeName hc.wellFormed hjobs).2 ⟨d, hpre, rfl⟩)

/-- The progress of a run when the levels `done` are done and the levels `left` are left. -/
structure Reaches (c : Setting) (done left : List (List String)) (p : Progress) : Prop where
  levels_eq : c.levels = done ++ left
  layered : Graph.Layered (c.jobs.map (·.name)) (Graph.beforeName c.jobs) done.flatten.toFinset left
  knows : p.Knows done.flatten.toFinset

theorem Leveled.reaches_start (hc : c.Leveled) : c.Reaches [] c.levels {} := ⟨rfl, hc.layered, knows_empty⟩

variable {done left : List (List String)} {level : List String} {p p' : Progress}

theorem Reaches.subset (hc : c.Leveled) (hp : c.Reaches done left p) :
    done.flatten.toFinset ⊆ (c.jobs.map (·.name)).toFinset := by
  intro n hn
  rw [List.mem_toFinset] at hn ⊢
  rw [← hc.perm.mem_iff, hp.levels_eq, List.flatten_append]
  exact List.mem_append_left _ hn

/-- The verdicts on the level at hand are those that the final results ask for. -/
theorem Reaches.verdict (hc : c.Leveled) (hp : c.Reaches done (level :: left) p) {R : String → JobResult}
    (hR : ∀ n ∈ done.flatten, R n = p.value n) :
    ∀ j ∈ Run.named c.jobs level, c.isDue p.value j = c.isDue R j ∧ (c.failFast && p.failed) = c.isCut R j := by
  intro j hj
  obtain ⟨hfollows, -⟩ := hc.follows hp.layered
  have hfresh : j.name ∉ done.flatten := fun h => hfollows.fresh j hj (List.mem_toFinset.2 h)
  have hlevel : Graph.levelOf c.levels j.name = done.length := by
    rw [hp.levels_eq, Graph.levelOf_append_of_mem (Run.mem_of_mem_named hj).2 hfresh]
  constructor
  · refine isDue_congr (hfollows.mem j hj) fun d hpre => ?_
    exact (hR d.name (List.mem_toFinset.1 (hfollows.before j hj d hpre))).symm
  · -- the names that are placed are those of the earlier levels
    rw [Bool.eq_iff_iff, isCut_iff, Bool.and_eq_true, hp.knows.failed]
    refine and_congr_right fun _ => ⟨?_, ?_⟩
    · rintro ⟨n, hn, hfail⟩
      obtain ⟨d, hd, rfl⟩ := List.mem_map.1 (List.mem_toFinset.1 (hp.subset hc hn))
      rw [List.mem_toFinset] at hn
      exact ⟨d, hd, by rw [hlevel, hp.levels_eq, Graph.levelOf_append_lt]; exact hn, by rw [hR _ hn]; exact hfail⟩
    · rintro ⟨d, -, hlt, hfail⟩
      rw [hlevel, hp.levels_eq, Graph.levelOf_append_lt] at hlt
      exact ⟨d.name, List.mem_toFinset.2 hlt, by rw [← hR _ hlt]; exact hfail⟩

section

variable {workers : Int} {E : Run.Outcomes}

/-- A level that ends well is done then, and what was done before has the results that it had. -/
theorem Reaches.step (hc : c.Leveled) (hp : c.Reaches done (level :: left) p)
    (h : Run.courseLevel c.scene workers E p (Run.named c.jobs level) = .ok p') :
    c.Reaches (done ++ [level]) left p' ∧ (∀ n ∈ done.flatten, p'.value n = p.value n) ∧
      ∀ j ∈ Run.named c.jobs level, p'.value j.name = c.levelResult E p j := by
  obtain ⟨hfollows, hnames⟩ := hc.follows hp.layered
  obtain ⟨hknows, hkeep, hnew⟩ := courseLevel_spec hc.wellFormed hp.knows (hp.subset hc) hfollows h
  rw [hnames] at hknows
  have hplaced : (done ++ [level]).flatten.toFinset = done.flatten.toFinset ∪ level.toFinset := by
    rw [List.flatten_append, List.toFinset_append, List.flatten_singleton]
  refine ⟨⟨?_, ?_, ?_⟩, fun n hn => hkeep n (List.mem_toFinset.2 hn), hnew⟩
  · rw [hp.levels_eq, List.append_assoc]; rfl
  · rw [hplaced]; exact hp.layered.2.2.2
  · rw [hplaced]; exact hknows

/-- The results when some of the levels have ended well: those of these levels solve their equations,
and the jobs that were executed in them are those that the results ask for. -/
theorem course_levels (hc : c.Leveled) :
    ∀ (mid left done : List (List String)) (p : Progress), c.Reaches done (mid ++ left) p →
      (mid.map (Run.named c.jobs)).foldlM (Run.courseLevel c.scene workers E) p = .ok p' →
      c.Reaches (done ++ mid) left p' ∧ (∀ n ∈ done.flatten, p'.value n = p.value n) ∧
        (∀ j ∈ Run.named c.jobs mid.flatten, p'.value j.name = if !c.isDue p'.value j then .skipped
          else if c.isCut p'.value j then .cancelled else Run.ended (E j.name)) ∧
        Run.courseJobs c.scene workers E (mid.map (Run.named c.jobs)) p =
          (Run.named c.jobs mid.flatten).filter (c.executes p'.value)
  | [], left, done, p, hp, h => by
    cases h
    exact ⟨by rw [List.append_nil]; exact hp, fun _ _ => rfl, fun _ hj => absurd hj List.not_mem_nil, rfl⟩
  | level :: mid, left, done, p, hp, h => by
    rw [List.map_cons, List.foldlM_cons] at h
    cases hq : Run.courseLevel c.scene workers E p (Run.named c.jobs level) with
    | error f => rw [hq] at h; cases h
    | ok q =>
      rw [hq] at h
      obtain ⟨hreaches, hkeep, hnew⟩ := hp.step hc hq
      obtain ⟨hend, hkeep', hsolved, hjobs⟩ := course_levels hc mid left (done ++ [level]) q hreaches h
      -- the final results are those before the level on what was done then, so they ask for its verdicts
      have hdone : ∀ n ∈ done.flatten, p'.value n = p.value n := fun n hn => by
        rw [hkeep' n (by rw [List.flatten_append]; exact List.mem_append_left _ hn), hkeep n hn]
      have hverdict := hp.verdict hc hdone
      have hnamed : Run.named c.jobs (level :: mid).flatten =
          Run.named c.jobs level ++ Run.named c.jobs mid.flatten := by
        rw [List.flatten_cons, Run.named, Run.named, Run.named, List.filterMap_append]
      refine ⟨by rw [List.append_cons]; exact hend, hdone, fun j hj => ?_, ?_⟩
      · rw [hnamed] at hj
        rcases List.mem_append.1 hj with hj | hj
        · -- a job of this level keeps the result that it gets here
          obtain ⟨hdue, hcut⟩ := hverdict j hj
          have hmem : j.name ∈ (done ++ [level]).flatten := by
            rw [List.flatten_append, List.flatten_singleton]
            exact List.mem_append_right _ (Run.mem_of_mem_named hj).2
          rw [hkeep' _ hmem, hnew j hj, c.levelResult_eq, hdue, hcut]
        · exact hsolved j hj
      · rw [List.map_cons, Run.courseJobs, hq]
        simp only [hjobs]
        rw [hnamed, List.filter_append,
          (courseLevel_eq_ok hc.wellFormed hp.knows (hp.subset hc) (hc.follows hp.layered).1 hq).1]
        congr 1
        refine List.filter_congr fun j hj => ?_
        obtain ⟨hdue, hcut⟩ := hverdict j hj
        rw [Bool.eq_iff_iff, decide_eq_true_iff, levelVerdict_eq_run, hdue, hcut, executes, Bool.and_eq_true,
          Bool.not_eq_true']

/-- A run ends well if none of its executions is interrupted. -/
theorem course_of_settles (hc : c.Leveled) (hw : 1 ≤ workers) (hE : ∀ j ∈ c.jobs, Run.Settles (E j.name)) :
    ∀ (left done : List (List String)) (p : Progress), c.Reaches done left p →
      ∃ p', (left.map (Run.named c.jobs)).foldlM (Run.courseLevel c.scene workers E) p = .ok p'
  | [], _, p, _ => ⟨p, rfl⟩
  | level :: left, done, p, hp => by
    obtain ⟨q, hq⟩ := courseLevel_of_settles hc.wellFormed hp.knows (hp.subset hc) (hc.follows hp.layered).1 hw hE
    obtain ⟨p', h⟩ := course_of_settles hc hw hE left (done ++ [level]) q (hp.step hc hq).1
    exact ⟨p', by rw [List.map_cons, List.foldlM_cons, hq]; exact h⟩

end

end Setting

/-! ## Whole runs -/

namespace Run

/-- The setting of a run of jobs, with their levels, on a host. -/
def settingOf (jobs : List Job) (levels : List (List String)) (t : Trigger) (o : RunOptions) (h : Host) : Setting :=
  ⟨jobs, levels, t, platformOf o h, o.failFast⟩

section

variable {jobs : List Job} {g : Graph} {levels : List (List String)} {t : Trigger} {o : RunOptions} {h : Host}

theorem leveled (hg : Graph.ofJobs jobs = .ok g) (hl : g.levels = .ok levels) :
    (settingOf jobs levels t o h).Leveled := by
  obtain ⟨hwf, rfl⟩ := Graph.wellFormed_of_ofJobs hg
  obtain ⟨hlay, hperm⟩ := Graph.levels_eq_ok (Graph.represents_ofEdges hwf) hl
  exact ⟨hwf, hlay, hperm⟩

theorem one_le_workers (ho : ∀ w, o.workers = some w → 1 ≤ w) : 1 ≤ workers o h := by
  unfold workers
  cases hw : o.workers with
  | none => exact le_max_left 1 _
  | some w => exact ho w hw

theorem workers_lt_one_iff (o : RunOptions) (h h' : Host) : workers o h < 1 ↔ workers o h' < 1 := by
  unfold workers
  cases o.workers with
  | none =>
    have hone : ∀ k : Int, ¬ max 1 k < 1 := fun k => not_lt.2 (le_max_left 1 k)
    exact iff_of_false (hone _) (hone _)
  | some w => exact Iff.rfl

theorem inOrder_eq {levels : List (List String)} {p : Progress} (hp : p.Knows levels.flatten.toFinset) :
    inOrder levels p.results = levels.flatten.map fun n => (n, p.value n) := by
  have hall : ∀ ns : List String, (∀ n ∈ ns, n ∈ levels.flatten) →
      ns.filterMap (fun n => (p.results.get? n).map (n, ·)) = ns.map fun n => (n, p.value n) := by
    intro ns hns
    rw [List.filterMap_eq_map_iff_forall_eq_some.2]
    intro n hn
    rw [hp.get?_eq (List.mem_toFinset.2 (hns n hn))]; rfl
  exact hall _ fun _ hn => hn

/-- The course of a run that ends well gives results that solve the equations, and executes the jobs
that these results ask for. -/
theorem course_solves (hg : Graph.ofJobs jobs = .ok g) (hl : g.levels = .ok levels) {E : Outcomes}
    {rs : List (String × JobResult)} (hrun : course jobs levels t o E h = .ok rs) :
    ∃ R : String → JobResult, rs = (levels.flatten.map fun n => (n, R n)) ∧
      (settingOf jobs levels t o h).Solves (fun n => ended (E n)) R ∧
      courseJobs (sceneOf jobs t o h) (workers o h) E (levels.map (named jobs)) {} =
        (named jobs levels.flatten).filter ((settingOf jobs levels t o h).executes R) := by
  have hc : (settingOf jobs levels t o h).Leveled := leveled hg hl
  unfold course at hrun
  cases hp : (levels.map (named jobs)).foldlM (courseLevel (sceneOf jobs t o h) (workers o h) E) {} with
  | error f => rw [hp] at hrun; cases hrun
  | ok p =>
    rw [hp] at hrun
    cases hrun
    obtain ⟨hend, -, hsolved, hjobs⟩ := Setting.course_levels hc levels [] [] {}
      (by rw [List.append_nil]; exact hc.reaches_start) hp
    refine ⟨p.value, inOrder_eq hend.knows, fun j hj => hsolved j ?_, hjobs⟩
    exact (mem_named hc.wellFormed.names_nodup).2 ⟨hj, hc.mem_flatten hj⟩

/-- A run with ordinary outcomes only ends well. -/
theorem course_ok (hg : Graph.ofJobs jobs = .ok g) (hl : g.levels = .ok levels) (ho : ∀ w, o.workers = some w → 1 ≤ w)
    {E : Outcomes} (hE : ∀ j ∈ jobs, Settles (E j.name)) : ∃ rs, course jobs levels t o E h = .ok rs := by
  have hc : (settingOf jobs levels t o h).Leveled := leveled hg hl
  obtain ⟨p, hp⟩ := Setting.course_of_settles hc (one_le_workers ho) hE levels [] {} hc.reaches_start
  refine ⟨inOrder levels p.results, ?_⟩
  unfold course
  rw [show (levels.map (named jobs)).foldlM (courseLevel (sceneOf jobs t o h) (workers o h) E) {} = .ok p from hp]
  rfl

/-- The calls are made in the order of the levels. -/
theorem calls_sublist (hg : Graph.ofJobs jobs = .ok g) (hl : g.levels = .ok levels) (execute : Executor) :
    ((calls jobs t o execute h).map (·.1.name)).Sublist levels.flatten := by
  have hc : (settingOf jobs levels t o h).Leveled := leveled hg hl
  have hnames : levels.flatten ⊆ jobs.map (·.name) := hc.perm.subset
  have hsub := (callsFrom_sublist (sceneOf jobs t o h) o (workers o h) execute (levels.map (named jobs)) {} h).map
    (·.name)
  rw [named_flatten, map_name_named hnames, List.map_map] at hsub
  rw [calls_eq hg hl]
  exact hsub

theorem nodup_calls (hg : Graph.ofJobs jobs = .ok g) (hl : g.levels = .ok levels) (execute : Executor) :
    ((calls jobs t o execute h).map (·.1.name)).Nodup := by
  have hc : (settingOf jobs levels t o h).Leveled := leveled hg hl
  exact (calls_sublist hg hl execute).nodup hc.layered.nodup_flatten

/-- What comes of the jobs in a run, as told by its calls. -/
def outcomes (jobs : List Job) (t : Trigger) (o : RunOptions) (execute : Executor) (h : Host) : Outcomes :=
  outcomesOf (calls jobs t o execute h)

theorem outcomes_eq (hg : Graph.ofJobs jobs = .ok g) (hl : g.levels = .ok levels) (execute : Executor) :
    ∀ c ∈ calls jobs t o execute h, outcomes jobs t o execute h c.1.name = c.2 :=
  outcomesOf_eq (nodup_calls hg hl execute)

/-- The calls are of jobs of the run, and what came of each came of the executor on some host. -/
theorem calls_real (hg : Graph.ofJobs jobs = .ok g) (hl : g.levels = .ok levels) {execute : Executor} :
    ∀ c ∈ calls jobs t o execute h, c.1 ∈ jobs ∧ ∃ h₁, ((execute c.1).on h₁).1 = c.2 := by
  intro c hm
  refine ⟨?_, (run_eq_course hg hl t o execute h (outcomes_eq hg hl execute)).2.2 c hm⟩
  have hsub := callsFrom_sublist (sceneOf jobs t o h) o (workers o h) execute (levels.map (named jobs)) {} h
  rw [calls_eq hg hl] at hm
  rw [named_flatten] at hsub
  exact (mem_of_mem_named (hsub.subset (List.mem_map.2 ⟨c, hm, rfl⟩))).1

/-- The results of a run that ends well solve the equations, and the run has executed the jobs that
they ask for. -/
theorem run_solves (hg : Graph.ofJobs jobs = .ok g) (hl : g.levels = .ok levels) (execute : Executor)
    {rs : List (String × JobResult)}
    (hrun : ((run jobs t o execute).on h).1 = .ok rs) :
    ∃ R : String → JobResult, rs = (levels.flatten.map fun n => (n, R n)) ∧
      (settingOf jobs levels t o h).Solves (fun n => ended (outcomes jobs t o execute h n)) R ∧
      ∀ j ∈ jobs, (settingOf jobs levels t o h).executes R j = true ↔ ∃ c ∈ calls jobs t o execute h, c.1 = j := by
  obtain ⟨hcourse, hjobs, -⟩ := run_eq_course hg hl t o execute h (outcomes_eq hg hl execute)
  rw [hcourse] at hrun
  obtain ⟨R, hrs, hR, hexec⟩ := course_solves hg hl hrun
  refine ⟨R, hrs, hR, fun j hj => ?_⟩
  have hc : (settingOf jobs levels t o h).Leveled := leveled hg hl
  have hmem : j ∈ named jobs levels.flatten := (mem_named hc.wellFormed.names_nodup).2 ⟨hj, hc.mem_flatten hj⟩
  have hcalled : j ∈ (calls jobs t o execute h).map (·.1) ↔ (settingOf jobs levels t o h).executes R j = true := by
    rw [hjobs, hexec, List.mem_filter]
    exact ⟨And.right, fun he => ⟨hmem, he⟩⟩
  rw [← hcalled, List.mem_map]

/-- A run none of whose calls is interrupted ends well. -/
theorem run_ok (hg : Graph.ofJobs jobs = .ok g) (hl : g.levels = .ok levels) (ho : ∀ w, o.workers = some w → 1 ≤ w)
    {execute : Executor} (hE : ∀ c ∈ calls jobs t o execute h, Settles c.2) :
    ∃ rs h', (run jobs t o execute).on h = (.ok rs, h') := by
  have hsettles : ∀ j ∈ jobs, Settles (outcomes jobs t o execute h j.name) := by
    intro j _
    unfold outcomes outcomesOf
    cases hf : (calls jobs t o execute h).find? (·.1.name = j.name) with
    | none => rfl
    | some c => exact hE c (List.mem_of_find?_eq_some hf)
  obtain ⟨rs, hrs⟩ := course_ok (t := t) (h := h) hg hl ho hsettles
  rw [← (run_eq_course hg hl t o execute h (outcomes_eq hg hl execute)).1] at hrs
  exact ⟨rs, _, Prod.ext hrs rfl⟩

/-- A run none of whose calls is interrupted returns results that solve the equations, and has executed
the jobs that they ask for. -/
theorem exists_results (hg : Graph.ofJobs jobs = .ok g) (hl : g.levels = .ok levels)
    (ho : ∀ w, o.workers = some w → 1 ≤ w) {execute : Executor} (hE : ∀ c ∈ calls jobs t o execute h, Settles c.2) :
    ∃ (R : String → JobResult) (h' : Host),
      (run jobs t o execute).on h = (.ok (levels.flatten.map fun n => (n, R n)), h') ∧
      (settingOf jobs levels t o h).Solves (fun n => ended (outcomes jobs t o execute h n)) R ∧
      ∀ j ∈ jobs, (settingOf jobs levels t o h).executes R j = true ↔ ∃ c ∈ calls jobs t o execute h, c.1 = j := by
  obtain ⟨rs, h', hrun⟩ := run_ok hg hl ho hE
  have hok : ((run jobs t o execute).on h).1 = .ok rs := by rw [hrun]
  obtain ⟨R, rfl, hR, hcalled⟩ := run_solves hg hl execute hok
  exact ⟨R, h', hrun, hR, hcalled⟩

end

end Run

/-! ## A sample -/

namespace Sample

/-- A build and a check, tests of what was built in a group, and a publication that needs the group. -/
def jobs : List Job := [
  { name := "publish", steps := [], needs := ["test"] },
  { name := "test-linux", steps := [], needs := ["build"], group := some "test" },
  { name := "test-windows", steps := [], needs := ["build"], group := some "test", runsOn := some "windows" },
  { name := "build", steps := [] },
  { name := "lint", steps := [] }]

def levels : List (List String) := [["build", "lint"], ["test-linux", "test-windows"], ["publish"]]

def trigger : Trigger := ⟨"refs/heads/main", "push", none, "main", false, by rfl, by decide⟩

def host : Host where
  here := ⟨1, []⟩
  clock := ⟨2024, 1, 1, 0, 0, 0⟩
  settings := ⟨"", "", "", "main", 60⟩

/-- The check fails, and everything else succeeds. -/
def execute : Executor := fun j => if j.name = "lint" then .fail (.os .denied "lint") else pure .success

theorem wellFormed_jobs : WellFormed jobs where
  names_nodup := by decide
  only_member := by simp [jobs, Job.MemberOf]
  needs_known := by simp [jobs, Job.MemberOf]

theorem ofJobs_jobs : Graph.ofJobs jobs = .ok (Graph.ofEdges (Graph.edgesOf jobs)) :=
  Graph.ofJobs_eq_ok wellFormed_jobs

theorem levels_jobs : (Graph.ofEdges (Graph.edgesOf jobs)).levels = .ok levels := by
  simp [jobs, levels, Graph.edgesOf, predecessorNames, resolved, membersOf, Graph.ofEdges, Graph.levels,
    Graph.levelsFrom, Graph.releaseAll, Graph.release, Graph.waitingFor, Graph.ready, sorted, List.mergeSort, distinct,
    Dict.get?, Dict.lookup_cons_if, Dict.set, Dict.setIn, bind, Except.bind, pure, Except.pure]

end Sample

/-! ## What a run computes -/

namespace Run

/-- An executor that with each of the jobs comes to success or to an ordinary fault, whatever was done before. -/
def Ordinary (jobs : List Job) (execute : Executor) : Prop :=
  ∀ j ∈ jobs, ∀ h, ((execute j).on h).1 = .ok .success ∨ ∃ f, ((execute j).on h).1 = .error f ∧ f.isOrdinary = true

theorem settles_of_ordinary {x : Except Fault JobResult}
    (h : x = .ok .success ∨ ∃ f, x = .error f ∧ f.isOrdinary = true) : Settles x := by
  rcases h with rfl | ⟨f, rfl, hf⟩
  · rfl
  · rw [Settles, settled, if_pos hf]; rfl

theorem calls_ordinary {jobs : List Job} {g : Graph} {levels : List (List String)} {t : Trigger} {o : RunOptions}
    {execute : Executor} {h : Host} (hg : Graph.ofJobs jobs = .ok g) (hl : g.levels = .ok levels)
    (hexec : Ordinary jobs execute) :
    ∀ c ∈ calls jobs t o execute h, c.2 = .ok .success ∨ ∃ f, c.2 = .error f ∧ f.isOrdinary = true := by
  intro c hm
  obtain ⟨hj, h₁, hx⟩ := calls_real hg hl c hm
  rw [← hx]
  exact hexec c.1 hj h₁

theorem ordinary_sample : Ordinary Sample.jobs Sample.execute := by
  intro j _ h
  unfold Sample.execute
  split
  · exact .inr ⟨_, rfl, rfl⟩
  · exact .inl rfl

/-- The results `R` are what a run of jobs computes: it returns them, each job's after those of the
jobs before it; it executes each job once that they ask for, and no other; and they are the only
solution of the equations under what came of these executions. -/
structure Computes (jobs : List Job) (levels : List (List String)) (t : Trigger) (o : RunOptions) (execute : Executor)
    (h : Host) (R : String → JobResult) : Prop where
  returns : ∃ h', (run jobs t o execute).on h = (.ok (levels.flatten.map fun n => (n, R n)), h')
  names : levels.flatten.Perm (jobs.map (·.name)) ∧ levels.flatten.Nodup
  ordered : ∀ d j, Precedes jobs d j → levels.flatten.idxOf d.name < levels.flatten.idxOf j.name
  called : ∀ j ∈ jobs, (settingOf jobs levels t o h).executes R j = true ↔ ∃ c ∈ calls jobs t o execute h, c.1 = j
  once : ((calls jobs t o execute h).map (·.1.name)).Nodup
  real : ∀ c ∈ calls jobs t o execute h, c.1 ∈ jobs ∧ ∃ h₁, ((execute c.1).on h₁).1 = c.2
  solves : ∀ E : String → JobResult, (∀ c ∈ calls jobs t o execute h, E c.1.name = ended c.2) →
    (settingOf jobs levels t o h).Solves E R ∧
      ∀ R', (settingOf jobs levels t o h).Solves E R' → ∀ j ∈ jobs, R' j.name = R j.name

/-- A run of jobs that have a graph and levels computes the meaning of its setting. -/
theorem run_computes {jobs : List Job} {g : Graph} {levels : List (List String)} (hg : Graph.ofJobs jobs = .ok g)
    (hl : g.levels = .ok levels) (t : Trigger) (o : RunOptions) (ho : ∀ w, o.workers = some w → 1 ≤ w)
    (execute : Executor) (hexec : Ordinary jobs execute) (h : Host) :
    ∃ R : String → JobResult, Computes jobs levels t o execute h R := by
  have hc : (settingOf jobs levels t o h).Leveled := leveled hg hl
  obtain ⟨R, h', hrun, hR, hcalled⟩ := exists_results (t := t) (h := h) hg hl ho fun c hm =>
    settles_of_ordinary (calls_ordinary hg hl hexec c hm)
  refine ⟨R, ⟨h', hrun⟩, ⟨hc.perm, hc.layered.nodup_flatten⟩, fun d j hpre => ?_, hcalled, nodup_calls hg hl execute,
    calls_real hg hl, fun E hE => ?_⟩
  · exact Graph.idxOf_lt_of_levelOf_lt (hc.mem_flatten hpre.1) (hc.ascends d j hpre)
  · have hER : (settingOf jobs levels t o h).Solves E R := hR.congr fun j hj he => by
      obtain ⟨c, hm, rfl⟩ := (hcalled j hj).1 he
      rw [hE c hm, outcomes_eq hg hl execute c hm]
    exact ⟨hER, fun R' hR' => hR'.unique hc.ascends hER⟩

/-- The check fails in a run that is to fail fast. -/
theorem run_computes_sample : ∃ R, Computes Sample.jobs Sample.levels Sample.trigger
    { workers := some 2, failFast := true } Sample.execute Sample.host R :=
  run_computes Sample.ofJobs_jobs Sample.levels_jobs _ _ (fun w hw => by cases hw; decide) _ ordinary_sample _

end Run

end CiPipeline
