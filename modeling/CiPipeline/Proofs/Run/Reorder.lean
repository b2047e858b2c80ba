import CiPipeline.Proofs.Gate
import CiPipeline.Proofs.Reorder
import CiPipeline.Proofs.Run.Solution

/-
The order in which jobs are declared does not matter to a run. A job finds the same results under its
needs in whatever order these come and the members of groups do, so it gets the same verdict; and as
the levels are the same, each level of one run has the same course as that of the other
(`course_mirrors`).
-/

namespace CiPipeline

/-! ## What jobs see when they are declared in another order -/

namespace Reordered

variable {jobs jobs' : List Job}

theorem mem_membersOf_iff (h : Reordered jobs jobs') {group n : String} :
    n ∈ membersOf jobs group → n ∈ membersOf jobs' group := by
  rw [mem_membersOf, mem_membersOf]
  rintro ⟨d, hd, hm, rfl⟩
  obtain ⟨d', hd', hdm⟩ := h.matched d hd
  exact ⟨d', hd', (hdm.memberOf_iff group).2 hm, hdm.name_eq⟩

theorem seen_eq (h : Reordered jobs jobs') (R : String → JobResult) (need : String) :
    seen jobs R need = seen jobs' R need := by
  unfold seen
  simp only [h.names_perm.mem_iff]
  split
  · rfl
  · refine JobResult.aggregate_congr fun r => ?_
    rw [List.mem_map, List.mem_map]
    constructor
    · rintro ⟨n, hn, rfl⟩; exact ⟨n, h.mem_membersOf_iff hn, rfl⟩
    · rintro ⟨n, hn, rfl⟩; exact ⟨n, h.symm.mem_membersOf_iff hn, rfl⟩

theorem sees_alike (h : Reordered jobs jobs') {j j' : Job} (hj : j.Matches j') (R : String → JobResult) :
    (j.sees jobs R).Alike (j'.sees jobs' R) := by
  refine ⟨Dict.nodup_keys_ofList _, Dict.nodup_keys_ofList _, fun need => ?_⟩
  rw [Job.sees, Job.sees, Dict.get?_ofList_map, Dict.get?_ofList_map, h.seen_eq R need]
  simp only [hj.needs]

/-- The jobs of some names are the same jobs. -/
theorem named_matches (h : Reordered jobs jobs') (hnd : (jobs.map (·.name)).Nodup) :
    ∀ {ns : List String}, ns ⊆ jobs.map (·.name) → List.Forall₂ Job.Matches (Run.named jobs ns) (Run.named jobs' ns)
  | [], _ => .nil
  | n :: ns, hns => by
    obtain ⟨j, hj, rfl⟩ := List.mem_map.1 (hns (List.mem_cons_self ..))
    obtain ⟨j', hj', hm⟩ := h.matched j hj
    have hfind := Run.find?_name hnd hj
    have hfind' := Run.find?_name (h.names_perm.nodup_iff.1 hnd) hj'
    rw [hm.name_eq] at hfind'
    have hrest := h.named_matches hnd fun m hm => hns (List.mem_cons_of_mem _ hm)
    unfold Run.named at hrest ⊢
    rw [List.filterMap_cons, List.filterMap_cons, hfind, hfind']
    exact .cons hm hrest

end Reordered

/-! ## The course of a run when jobs are declared in another order -/

namespace Setting

/-- Two settings of the same jobs, in different orders, that are alike in all else that verdicts look at. -/
structure Mirrors (c c' : Setting) : Prop where
  jobs : Reordered c.jobs c'.jobs
  trigger : c.trigger = c'.trigger
  platform : c.platform = c'.platform
  failFast : c.failFast = c'.failFast

variable {c c' : Setting} {p : Progress}

theorem Mirrors.levelVerdict_eq (h : c.Mirrors c') (p : Progress) {j j' : Job} (hj : j.Matches j') :
    c.levelVerdict p j = c'.levelVerdict p j' := by
  unfold Setting.levelVerdict verdictOf
  rw [hj.gateOrDefault_eq, Gate.isOpen_congr (h.jobs.sees_alike hj p.value), h.trigger, h.failFast, h.platform,
    Job.isElsewhere, Job.isElsewhere, hj.runsOn_eq]

theorem Mirrors.foldl_pass_eq (h : c.Mirrors c') (p : Progress) {js js' : List Job}
    (hjs : List.Forall₂ Job.Matches js js') :
    ∀ q : Progress, js.foldl (fun q j => q.pass j (c.levelVerdict p j)) q =
      js'.foldl (fun q j => q.pass j (c'.levelVerdict p j)) q := by
  induction hjs with
  | nil => exact fun _ => rfl
  | cons hj _ ih =>
    intro q
    rw [List.foldl_cons, List.foldl_cons, ih, h.levelVerdict_eq p hj]
    unfold Progress.pass
    rw [hj.name_eq]

theorem Mirrors.levelRuns_names (h : c.Mirrors c') (p : Progress) {js js' : List Job}
    (hjs : List.Forall₂ Job.Matches js js') : (c.levelRuns p js).map (·.name) = (c'.levelRuns p js').map (·.name) := by
  induction hjs with
  | nil => rfl
  | cons hj _ ih =>
    unfold levelRuns at ih ⊢
    rw [List.filter_cons, List.filter_cons, h.levelVerdict_eq p hj]
    split
    · rw [List.map_cons, List.map_cons, ih, hj.name_eq]
    · exact ih

section

variable {workers workers' : Int} {E : Run.Outcomes} {placed : Finset String}

/-- The course of a level is the same for the same jobs. -/
theorem Mirrors.courseLevel_eq (h : c.Mirrors c') (hwf : WellFormed c.jobs) (hp : p.Knows placed)
    (hsub : placed ⊆ (c.jobs.map (·.name)).toFinset) {js js' : List Job} (hjs : List.Forall₂ Job.Matches js js')
    (hf : c.Follows placed js) (hf' : c'.Follows placed js') (hw : workers < 1 ↔ workers' < 1) :
    Run.courseLevel c.scene workers E p js = Run.courseLevel c'.scene workers' E p js' := by
  have hsub' : placed ⊆ (c'.jobs.map (·.name)).toFinset := fun n hn => by
    rw [List.mem_toFinset, ← h.jobs.names_perm.mem_iff, ← List.mem_toFinset]; exact hsub hn
  have hnames := h.levelRuns_names p hjs
  have hnil : c.levelRuns p js ≠ [] ↔ c'.levelRuns p js' ≠ [] := by
    rw [ne_eq, ne_eq, ← List.map_eq_nil_iff, hnames, List.map_eq_nil_iff]
  have hfold : ∀ (q : Progress) (l : List Job), l.foldlM (fun p j => Run.receive p j.name (E j.name)) q =
      (l.map (·.name)).foldlM (fun p n => Run.receive p n (E n)) q := fun q l => by rw [List.foldlM_map]
  rw [(CiPipeline.courseLevel_eq hwf hp hsub hf workers E).2,
    (CiPipeline.courseLevel_eq (h.jobs.wellFormed hwf) hp hsub' hf' workers' E).2,
    hfold, hfold, hnames, h.foldl_pass_eq p hjs]
  simp only [hw, hnil]

/-- The course of the levels that are left is the same for the same jobs. -/
theorem course_mirrors (h : c.Mirrors c') (hc : c.Leveled) (hc' : c'.Leveled) (hw : workers < 1 ↔ workers' < 1) :
    ∀ (left done : List (List String)) (p : Progress), c.Reaches done left p → c'.Reaches done left p →
      (left.map (Run.named c.jobs)).foldlM (Run.courseLevel c.scene workers E) p =
        (left.map (Run.named c'.jobs)).foldlM (Run.courseLevel c'.scene workers' E) p
  | [], _, _, _, _ => rfl
  | level :: left, done, p, hp, hp' => by
    obtain ⟨hfollows, hnames⟩ := hc.follows hp.layered
    obtain ⟨hfollows', -⟩ := hc'.follows hp'.layered
    have hlevel : level ⊆ c.jobs.map (·.name) := fun n hn => by
      rw [← hnames] at hn
      obtain ⟨j, hj, rfl⟩ := List.mem_map.1 hn
      exact List.mem_map.2 ⟨j, hfollows.mem j hj, rfl⟩
    -- the levels are the same, so both settings stay in step
    have heq := h.courseLevel_eq (E := E) hc.wellFormed hp.knows (hp.subset hc)
      (h.jobs.named_matches hc.wellFormed.names_nodup hlevel) hfollows hfollows' hw
    rw [List.map_cons, List.map_cons, List.foldlM_cons, List.foldlM_cons, ← heq]
    cases hq : Run.courseLevel c.scene workers E p (Run.named c.jobs level) with
    | error f => rfl
    | ok q =>
      have hq' := heq ▸ hq
      exact course_mirrors h hc hc' hw left (done ++ [level]) q (hp.step hc hq).1 (hp'.step hc' hq').1

end

end Setting

/-! ## Whole runs -/

/-- Jobs that have no levels are refused with an error of value, never for a name that cannot be found. -/
theorem Graph.faultClass_of_refused {jobs : List Job} {e : GraphError}
    (he : (Graph.ofJobs jobs >>= Graph.levels) = .error e) : (Fault.graph e).faultClass = .value := by
  have hknown : ∀ n, e ≠ .unknownName n := by
    by_cases hwf : WellFormed jobs
    · rw [Graph.ofJobs_eq_ok hwf] at he
      obtain ⟨names, rfl⟩ := Graph.levels_eq_error (Graph.represents_ofEdges hwf) he
      exact nofun
    · obtain ⟨e', he', hknown⟩ := Graph.ofJobs_eq_error hwf
      rw [he'] at he
      cases he
      exact hknown
  cases e with
  | unknownName n => exact absurd rfl (hknown n)
  | _ => rfl

/-- The sample from its end, with a need that is repeated. -/
def Sample.reversed : List Job := Sample.jobs.reverse.map fun j => { j with needs := j.needs ++ j.needs }

theorem Sample.reordered_reversed : Reordered Sample.jobs Sample.reversed := by
  refine ⟨Sample.jobs.reverse, (List.reverse_perm _).symm, ?_⟩
  rw [Sample.reversed, List.forall₂_map_right_iff, List.forall₂_same]
  exact fun j _ => ⟨rfl, fun need => by rw [List.mem_append, or_self]⟩

namespace Run

/-- Jobs that are refused with an error of value, before a run of them does anything. -/
def Refused (jobs : List Job) : Prop :=
  ∃ e, (Graph.ofJobs jobs >>= Graph.levels) = .error e ∧ (Fault.graph e).faultClass = .value ∧
    ∀ t o execute h, (run jobs t o execute).on h = (.error (.graph e), h)

theorem refused_of_error {jobs : List Job} {e : GraphError} (he : (Graph.ofJobs jobs >>= Graph.levels) = .error e) :
    Refused jobs :=
  ⟨e, he, Graph.faultClass_of_refused he, fun t o execute h => run_refused he t o execute h⟩

theorem refused_of_not_wellFormed {jobs : List Job} (h : ¬ WellFormed jobs) : Refused jobs := by
  obtain ⟨e, he, -⟩ := Graph.ofJobs_eq_error h
  exact refused_of_error (by rw [he]; rfl)

section

variable {jobs jobs' : List Job} {g g' : Graph} {levels : List (List String)} {t : Trigger} {o : RunOptions}
  {h h' : Host}

theorem course_reordered (hr : Reordered jobs jobs') (hg : Graph.ofJobs jobs = .ok g)
    (hg' : Graph.ofJobs jobs' = .ok g') (hl : g.levels = .ok levels) (hl' : g'.levels = .ok levels)
    (hplatform : platformOf o h = platformOf o h') (E : Outcomes) :
    course jobs levels t o E h = course jobs' levels t o E h' := by
  have hc : (settingOf jobs levels t o h).Leveled := leveled hg hl
  have hc' : (settingOf jobs' levels t o h').Leveled := leveled hg' hl'
  have hm : (settingOf jobs levels t o h).Mirrors (settingOf jobs' levels t o h') := ⟨hr, rfl, hplatform, rfl⟩
  unfold course
  congr 1
  exact Setting.course_mirrors hm hc hc' (workers_lt_one_iff o h h') levels [] {} hc.reaches_start hc'.reaches_start

/-- What a run comes to if what comes of an execution depends on the name of the job only. -/
theorem run_eq_course_of_names (hg : Graph.ofJobs jobs = .ok g) (hl : g.levels = .ok levels) {execute : Executor}
    {E : Outcomes} (hE : ∀ j ∈ jobs, ∀ h, ((execute j).on h).1 = E j.name) :
    ((run jobs t o execute).on h).1 = course jobs levels t o E h := by
  refine (run_eq_course hg hl t o execute h fun c hm => ?_).1
  obtain ⟨hj, h₁, hx⟩ := calls_real hg hl c hm
  rw [← hx, hE c.1 hj]

end

/-- The order in which jobs are declared, and their needs, does not matter: either both lists are
refused with an error of value, or they have the same levels, and then runs of them come to the same
if what comes of an execution depends on the name of the job only. -/
theorem run_reordered {jobs jobs' : List Job} (hr : Reordered jobs jobs') :
    (Refused jobs ∧ Refused jobs') ∨
    ∃ levels, (Graph.ofJobs jobs >>= Graph.levels) = .ok levels ∧ (Graph.ofJobs jobs' >>= Graph.levels) = .ok levels ∧
      ∀ t o execute (E : Outcomes), (∀ j, j ∈ jobs ∨ j ∈ jobs' → ∀ h, ((execute j).on h).1 = E j.name) →
        ∀ h h', platformOf o h = platformOf o h' →
          ((run jobs t o execute).on h).1 = ((run jobs' t o execute).on h').1 ∧
          ((∀ w, o.workers = some w → 1 ≤ w) → (∀ j ∈ jobs, Settles (E j.name)) →
            ∃ rs, ((run jobs t o execute).on h).1 = .ok rs ∧ rs.map (·.1) = levels.flatten) := by
  rcases hr.levels_eq with ⟨hno, hno'⟩ | ⟨g, g', hg, hg', heq⟩
  · exact .inl ⟨refused_of_not_wellFormed hno, refused_of_not_wellFormed hno'⟩
  have hlevels : (Graph.ofJobs jobs >>= Graph.levels) = g.levels := by rw [hg]; rfl
  have hlevels' : (Graph.ofJobs jobs' >>= Graph.levels) = g.levels := by rw [hg', heq]; rfl
  cases hl : g.levels with
  | error e => exact .inl ⟨refused_of_error (hlevels.trans hl), refused_of_error (hlevels'.trans hl)⟩
  | ok levels =>
    have hl' : g'.levels = .ok levels := heq ▸ hl
    refine .inr ⟨levels, hlevels.trans hl, hlevels'.trans hl, fun t o execute E hE h h' hplatform =>
      ⟨?_, fun ho hsettles => ?_⟩⟩
    · rw [run_eq_course_of_names hg hl fun j hj => hE j (.inl hj),
        run_eq_course_of_names hg' hl' fun j hj => hE j (.inr hj)]
      exact course_reordered hr hg hg' hl hl' hplatform E
    · obtain ⟨rs, hrs⟩ := course_ok (t := t) (h := h) hg hl ho hsettles
      obtain ⟨R, hR, -⟩ := course_solves hg hl hrs
      refine ⟨rs, (run_eq_course_of_names hg hl fun j hj => hE j (.inl hj)).trans hrs, ?_⟩
      rw [hR, List.map_map]
      exact List.map_id' levels.flatten

/-- The check fails alike in runs of the sample and of the sample from its end. -/
theorem run_reordered_sample :
    (Graph.ofJobs Sample.reversed >>= Graph.levels) = .ok Sample.levels ∧
      ((run Sample.jobs Sample.trigger {} Sample.execute).on Sample.host).1 =
        ((run Sample.reversed Sample.trigger {} Sample.execute).on Sample.host).1 := by
  have hlevels : (Graph.ofJobs Sample.jobs >>= Graph.levels) = .ok Sample.levels := by
    rw [Sample.ofJobs_jobs]; exact Sample.levels_jobs
  rcases run_reordered Sample.reordered_reversed with ⟨⟨e, he, -⟩, -⟩ | ⟨levels, hl, hl', hruns⟩
  · rw [hlevels] at he; cases he
  · rw [hlevels] at hl
    cases hl
    refine ⟨hl', (hruns Sample.trigger {} Sample.execute
      (fun n => if n = "lint" then .error (.os .denied "lint") else .ok .success) (fun j _ h => ?_)
      Sample.host Sample.host rfl).1⟩
    unfold Sample.execute
    split <;> rfl

end Run

end CiPipeline
