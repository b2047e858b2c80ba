import CiPipeline.Proofs.Gate
import CiPipeline.Proofs.Plan
import CiPipeline.Proofs.Run.Ancestry
import CiPipeline.Proofs.Run.Discipline

/-
Plans under force: `plan_forced`. Gates are monotone in the successes that they see, and so is the
result of a single job; but that of a group is not, as one member that fails spoils the successes of
the others. So if no member of a group is assumed to fail or to be cancelled, what succeeds without
force succeeds with it (`Solves.forced`), by induction on the levels.
-/

namespace CiPipeline

/-- No member of a group comes to a failure or to a cancellation if it is executed. -/
def SparesGroups (jobs : List Job) (E : String → JobResult) : Prop :=
  ∀ j ∈ jobs, ∀ group, j.MemberOf group → E j.name ≠ .failure ∧ E j.name ≠ .cancelled

/-- The setting of the same run, forced or not. -/
def Setting.forcing (c : Setting) (force : Bool) : Setting := { c with trigger := c.trigger.forcing force }

namespace Setting

variable {c : Setting} {E R R' : String → JobResult} {j : Job} {b : Bool}

/-! ## What succeeds -/

/-- A job that succeeds was executed, as nothing else is a success. -/
theorem Solves.executes_of_success (h : c.Solves E R) (hj : j ∈ c.jobs) (hR : R j.name = .success) :
    c.executes R j = true := by
  rcases h.cases hj with ⟨-, hskipped⟩ | ⟨-, -, hcancelled⟩ | ⟨hexecutes, -⟩
  · rw [hskipped] at hR; cases hR
  · rw [hcancelled] at hR; cases hR
  · exact hexecutes

/-- A job that is executed ends as its execution does. -/
theorem Solves.eq_of_executes (h : c.Solves E R) (hj : j ∈ c.jobs) (hexecutes : c.executes R j = true) :
    R j.name = E j.name := by
  rw [executes, Bool.and_eq_true, Bool.not_eq_true'] at hexecutes
  rw [h j hj, hexecutes.1, hexecutes.2]
  rfl

/-- What a job sees as a success is one too when the jobs before it have more successes, if none of
them that is in a group failed or was cancelled. -/
theorem seen_success (hj : j ∈ c.jobs)
    (hsuccess : ∀ d, Precedes c.jobs d j → R d.name = .success → R' d.name = .success)
    (hspared : ∀ d ∈ c.jobs, ∀ group, d.MemberOf group → R' d.name ≠ .failure ∧ R' d.name ≠ .cancelled)
    {need : String} (hneed : need ∈ j.needs) (hseen : seen c.jobs R need = .success) :
    seen c.jobs R' need = .success := by
  by_cases hname : need ∈ c.jobs.map (·.name)
  · rw [seen_of_name R hname] at hseen
    rw [seen_of_name R' hname]
    obtain ⟨d, hd, rfl⟩ := List.mem_map.1 hname
    exact hsuccess d ⟨hd, hj, d.name, hneed, .inl rfl⟩ hseen
  · rw [seen_eq_success hname] at hseen ⊢
    obtain ⟨⟨n, hn, hR⟩, -⟩ := hseen
    obtain ⟨d, hd, hmember, rfl⟩ := mem_membersOf.1 hn
    refine ⟨⟨d.name, hn, hsuccess d ⟨hd, hj, need, hneed, .inr ⟨hname, hmember⟩⟩ hR⟩, fun n hn => ?_⟩
    obtain ⟨d, hd, hmember, rfl⟩ := mem_membersOf.1 hn
    exact hspared d hd need hmember

/-- A member of a group neither fails nor is cancelled in a run that does not fail fast, if no execution of one does. -/
theorem Solves.spared (h : c.Solves E R) (hff : c.failFast = false) (hE : SparesGroups c.jobs E) :
    ∀ d ∈ c.jobs, ∀ group, d.MemberOf group → R d.name ≠ .failure ∧ R d.name ≠ .cancelled := by
  intro d hd group hmember
  rcases h.cases hd with ⟨-, hR⟩ | ⟨-, hcut, -⟩ | ⟨-, hR⟩
  · rw [hR]; exact ⟨nofun, nofun⟩
  · rw [isCut_eq_false hff] at hcut; cases hcut
  · rw [hR]; exact hE d hd group hmember

/-- What is executed without force is executed with it, and what succeeds without it succeeds with it. -/
theorem Solves.forced (h : (c.forcing false).Solves E R) (h' : (c.forcing true).Solves E R') (hc : c.Ascends)
    (hff : c.failFast = false) (hE : SparesGroups c.jobs E) (hj : j ∈ c.jobs) :
    ((c.forcing false).executes R j = true → (c.forcing true).executes R' j = true) ∧
      (R j.name = .success → R' j.name = .success) := by
  induction hl : Graph.levelOf c.levels j.name using Nat.strong_induction_on generalizing j with
  | _ l ih =>
    have hbefore : ∀ d, Precedes c.jobs d j → R d.name = .success → R' d.name = .success :=
      fun d hpre => (ih _ (hl ▸ hc d j hpre) hpre.1 rfl).2
    have hsees : Gate.Exceeds (j.sees c.jobs R) (j.sees c.jobs R') := by
      have hseen : ∀ need ∈ j.needs, seen c.jobs R need = .success → seen c.jobs R' need = .success :=
        fun need hneed => seen_success hj hbefore (h'.spared hff hE) hneed
      refine ⟨fun n hget => ?_, fun hall r hr => ?_⟩
      · rw [Job.get?_sees] at hget ⊢
        split at hget
        · rename_i hn
          rw [if_pos hn, hseen n hn (Option.some.inj hget)]
        · cases hget
      · obtain ⟨need, hneed, rfl⟩ := Job.mem_values_sees.1 hr
        exact hseen need hneed (hall _ (Job.mem_values_sees.2 ⟨need, hneed, rfl⟩))
    have hexecutes : (c.forcing false).executes R j = true → (c.forcing true).executes R' j = true := by
      intro hx
      rw [executes, isDue, Bool.and_eq_true, Bool.and_eq_true] at hx ⊢
      refine ⟨⟨Gate.isOpen_mono hsees c.trigger (fun _ => rfl) j.gateOrDefault hx.1.1, hx.1.2⟩, ?_⟩
      rw [isCut_eq_false (c := c.forcing true) hff]
      rfl
    refine ⟨hexecutes, fun hR => ?_⟩
    have hx := h.executes_of_success hj hR
    rw [h'.eq_of_executes hj (hexecutes hx), ← h.eq_of_executes hj hx, hR]

/-- If no gate can be forced, forcing a run makes no difference to the equations. -/
theorem Solves.unforcible (h : (c.forcing b).Solves E R) (hgates : ∀ j ∈ c.jobs, j.gateOrDefault.isForcible = false)
    (b' : Bool) : (c.forcing b').Solves E R := by
  intro j hj
  have hdue : (c.forcing b').isDue R j = (c.forcing b).isDue R j := by
    rw [isDue, isDue]
    exact congrArg (· && !j.isElsewhere c.platform) (Gate.isOpen_forcing _ c.trigger b' b _ (hgates j hj))
  rw [hdue]
  exact h j hj

end Setting

/-! ## Plans -/

namespace Plan

open CiPipeline.Run

theorem bad?_eq_some {a : Assumptions} (ha : ¬ ∀ e ∈ a.entries, e.2 ∈ JobResult.all) : ∃ e, a.bad? = some e := by
  cases hbad : a.bad? with
  | some e => exact ⟨e, rfl⟩
  | none =>
    refine absurd (fun e he => ?_) ha
    have hgood := List.find?_eq_none.1 hbad e he
    rw [Bool.not_eq_true, Bool.not_eq_false'] at hgood
    exact (JobResult.isEnding_iff_mem_all _).1 hgood

/-- A plan that assumes what no job can end with is refused before anything else. -/
theorem plan_refused {jobs : List Job} {t : Trigger} {a : Assumptions} {job : String} {r : JobResult}
    (hbad : a.bad? = some (job, r)) (platform : Option String) (printPlan : Bool) (h : Host) :
    (plan jobs t a platform printPlan).on h = (.error (.unknownResult r.word job), h) := by
  unfold plan
  rw [hbad]
  rfl

/-- What one plan comes to beside another on the same host: the jobs that are executed in the first are
executed in the second, those that succeed in the first succeed in the second, and what is wrong with
the first is wrong with the second. -/
structure Widens (jobs : List Job) (h : Host) (x y : Except Fault (List (String × JobResult)) × Host) : Prop where
  executed : ∃ ns ns', x.2.began = h.began ++ ns ∧ y.2.began = h.began ++ ns' ∧
    ∀ j ∈ jobs, j.name ∈ ns → j.name ∈ ns'
  succeeded : ∀ rs, x.1 = .ok rs →
    ∃ rs', y.1 = .ok rs' ∧ ∀ j ∈ jobs, (j.name, .success) ∈ rs → (j.name, .success) ∈ rs'
  refused : ∀ f, x.1 = .error f → y.1 = .error f

/-- The plan of a run that is forced or not, on a host. -/
def forced (jobs : List Job) (t : Trigger) (a : Assumptions) (platform : Option String) (printPlan : Bool) (h : Host)
    (force : Bool) : Except Fault (List (String × JobResult)) × Host :=
  (plan jobs (t.forcing force) a platform printPlan).on h

section

variable {jobs : List Job} {g : Graph} {levels : List (List String)} {t : Trigger} {a : Assumptions}
  {platform : Option String} {printPlan : Bool} {h : Host}

theorem forced_widens (hg : Graph.ofJobs jobs = .ok g) (hl : g.levels = .ok levels)
    (ha : ∀ e ∈ a.entries, e.2 ∈ JobResult.all) (hspared : SparesGroups jobs a.at) :
    Widens jobs h (forced jobs t a platform printPlan h false) (forced jobs t a platform printPlan h true) := by
  have hc : (settingOf jobs levels t (options platform printPlan) h).Leveled := leveled hg hl
  obtain ⟨R, h₁, ns, hplan, hR, hbegan, hexec⟩ := exists_planned hg hl ha (t.forcing false) platform printPlan h
  obtain ⟨R', h₁', ns', hplan', hR', hbegan', hexec'⟩ := exists_planned hg hl ha (t.forcing true) platform printPlan h
  have hforced : ∀ j ∈ jobs, _ := fun j hj =>
    Setting.Solves.forced (c := settingOf jobs levels t (options platform printPlan) h) (j := j) hR hR' hc.ascends rfl
      hspared hj
  unfold forced
  rw [hplan, hplan']
  refine ⟨⟨ns, ns', hbegan, hbegan', fun j hj hn => ?_⟩, fun rs hrs => ?_, nofun⟩
  · exact (hexec' j hj).1 ((hforced j hj).1 ((hexec j hj).2 hn))
  · cases hrs
    refine ⟨_, rfl, fun j hj hmem => ?_⟩
    have hplaced : j.name ∈ levels.flatten := hc.mem_flatten hj
    rw [mem_results hplaced] at hmem ⊢
    exact (hforced j hj).2 hmem

theorem forced_eq (hg : Graph.ofJobs jobs = .ok g) (hl : g.levels = .ok levels)
    (ha : ∀ e ∈ a.entries, e.2 ∈ JobResult.all) (hgates : ∀ j ∈ jobs, j.gateOrDefault.isForcible = false) :
    (forced jobs t a platform printPlan h true).1 = (forced jobs t a platform printPlan h false).1 := by
  obtain ⟨R, h₁, -, hplan, hR, -⟩ := exists_planned hg hl ha (t.forcing false) platform printPlan h
  have hR' : (settingOf jobs levels (t.forcing true) (options platform printPlan) h).Solves a.at R :=
    Setting.Solves.unforcible (c := settingOf jobs levels t (options platform printPlan) h) hR hgates true
  obtain ⟨h₁', hplan'⟩ := plan_eq hg hl ha hR'
  unfold forced
  rw [hplan, hplan']

end

/-- A plan returns if nothing is assumed that no job can end with. Under force it executes all jobs that
it executes without, and those that succeed without force succeed with it, if no member of a group is
assumed to fail or to be cancelled. If no gate can be forced, the results are the same. -/
theorem plan_forced {jobs : List Job} {g : Graph} {levels : List (List String)} (hg : Graph.ofJobs jobs = .ok g)
    (hl : g.levels = .ok levels) (t : Trigger) (a : Assumptions) (platform : Option String) (printPlan : Bool)
    (h : Host) :
    ((∀ e ∈ a.entries, e.2 ∈ JobResult.all) → ∃ rs, (forced jobs t a platform printPlan h false).1 = .ok rs) ∧
    (SparesGroups jobs a.at →
      Widens jobs h (forced jobs t a platform printPlan h false) (forced jobs t a platform printPlan h true)) ∧
    ((∀ j ∈ jobs, j.gateOrDefault.isForcible = false) →
      (forced jobs t a platform printPlan h true).1 = (forced jobs t a platform printPlan h false).1) := by
  by_cases ha : ∀ e ∈ a.entries, e.2 ∈ JobResult.all
  · obtain ⟨R, h₁, -, hplan, -⟩ := exists_planned hg hl ha (t.forcing false) platform printPlan h
    exact ⟨fun _ => ⟨_, congrArg Prod.fst hplan⟩, forced_widens hg hl ha, forced_eq hg hl ha⟩
  · -- what is assumed is looked at first, and force has no part in that
    obtain ⟨⟨job, r⟩, hbad⟩ := bad?_eq_some ha
    have hrefused : ∀ force, forced jobs t a platform printPlan h force = (.error (.unknownResult r.word job), h) :=
      fun force => plan_refused hbad platform printPlan h
    rw [hrefused, hrefused]
    refine ⟨fun hgood => absurd hgood ha, fun _ => ⟨⟨[], [], ?_, ?_, fun _ _ hn => hn⟩, nofun, fun _ hf => hf⟩,
      fun _ => rfl⟩
    · exact (List.append_nil _).symm
    · exact (List.append_nil _).symm

end Plan

namespace Sample

/-- A check that may be overridden, a build after it, tests of the build in a group, and a publication. -/
def gated : List Job := [
  { name := "publish", steps := [], needs := ["test"], gate := some (.succeeded ["test"]) },
  { name := "test-linux", steps := [], needs := ["build"], group := some "test" },
  { name := "test-windows", steps := [], needs := ["build"], group := some "test", runsOn := some "windows" },
  { name := "build", steps := [], needs := ["lint"],
    gate := some (.allOf [.always, .anyOf [.onVersionTag, .succeededOrForced ["lint"]]]) },
  { name := "lint", steps := [] }]

theorem wellFormed_gated : WellFormed gated where
  names_nodup := by decide
  only_member := by simp [gated, Job.MemberOf]
  needs_known := by simp [gated, Job.MemberOf]

theorem ofJobs_gated : Graph.ofJobs gated = .ok (Graph.ofEdges (Graph.edgesOf gated)) :=
  Graph.ofJobs_eq_ok wellFormed_gated

theorem levels_gated : (Graph.ofEdges (Graph.edgesOf gated)).levels =
    .ok [["lint"], ["build"], ["test-linux", "test-windows"], ["publish"]] := by
  simp [gated, Graph.edgesOf, predecessorNames, resolved, membersOf, Graph.ofEdges, Graph.levels,
    Graph.levelsFrom, Graph.releaseAll, Graph.release, Graph.waitingFor, Graph.ready, sorted, List.mergeSort, distinct,
    Dict.get?, Dict.lookup_cons_if, Dict.set, Dict.setIn, bind, Except.bind, pure, Except.pure]

end Sample

namespace Plan

/-- With a check that fails, force widens a plan in which a member of a group is assumed to be skipped;
and where no gate can be forced, it makes no difference even if a member is assumed to fail. -/
theorem plan_forced_sample :
    (∃ rs, (forced Sample.gated Sample.trigger ⟨[("lint", .failure), ("test-windows", .skipped)]⟩ none true
      Sample.host false).1 = .ok rs) ∧
    Widens Sample.gated Sample.host
      (forced Sample.gated Sample.trigger ⟨[("lint", .failure), ("test-windows", .skipped)]⟩ none true Sample.host false)
      (forced Sample.gated Sample.trigger ⟨[("lint", .failure), ("test-windows", .skipped)]⟩ none true Sample.host
        true) ∧
    (forced Sample.jobs Sample.trigger ⟨[("test-linux", .failure)]⟩ none true Sample.host true).1 =
      (forced Sample.jobs Sample.trigger ⟨[("test-linux", .failure)]⟩ none true Sample.host false).1 := by
  have hgated := plan_forced Sample.ofJobs_gated Sample.levels_gated Sample.trigger
    ⟨[("lint", .failure), ("test-windows", .skipped)]⟩ none true Sample.host
  have hfree := plan_forced Sample.ofJobs_jobs Sample.levels_jobs Sample.trigger ⟨[("test-linux", .failure)]⟩ none true
    Sample.host
  refine ⟨hgated.1 (by decide), hgated.2.1 fun j hj group hmember => ?_, hfree.2.2 fun j hj => ?_⟩
  · simp only [Sample.gated, List.mem_cons, List.not_mem_nil, or_false] at hj
    rcases hj with rfl | rfl | rfl | rfl | rfl
    · cases hmember.1
    · decide
    · decide
    · cases hmember.1
    · cases hmember.1
  · simp only [Sample.jobs, List.mem_cons, List.not_mem_nil, or_false] at hj
    rcases hj with rfl | rfl | rfl | rfl | rfl <;> rfl

end Plan

end CiPipeline
