import CiPipeline.Proofs.Run.Decision
import CiPipeline.Proofs.Run.Halting
import CiPipeline.Proofs.Run.Interruption
import Mathlib.Order.Lattice.Nat

/-
A run that fails fast beside the same run that does not: `run_failFast`. The results of the two are the
same as long as nothing has failed (`Solves.agree_to_failure`), so the first failure is in the same
level of both; after that level the run that fails fast executes nothing, and cancels what is due
(`Solves.after_failure`).
-/

namespace CiPipeline

/-! ## The results of the two runs -/

/-- The first level with a failure. -/
def FirstFailure (jobs : List Job) (levels : List (List String)) (R : String → JobResult) (l : Nat) : Prop :=
  IsLeast {l | ∃ j ∈ jobs, Graph.levelOf levels j.name = l ∧ R j.name = .failure} l

section

variable {jobs : List Job} {levels : List (List String)} {R : String → JobResult} {l : Nat} {j : Job}

theorem FirstFailure.ne_failure (h : FirstFailure jobs levels R l) (hj : j ∈ jobs)
    (hlt : Graph.levelOf levels j.name < l) : R j.name ≠ .failure :=
  fun hfail => absurd (h.2 ⟨j, hj, rfl, hfail⟩) (Nat.not_le_of_lt hlt)

theorem exists_firstFailure (hj : j ∈ jobs) (hfail : R j.name = .failure) : ∃ l, FirstFailure jobs levels R l :=
  ⟨_, isLeast_csInf ⟨_, j, hj, rfl, hfail⟩⟩

end

namespace Setting

variable {c : Setting} {E R R' : String → JobResult} {l : Nat} {j : Job}

/-- The results are the same as long as nothing has failed. -/
theorem Solves.agree_to_failure (h : (c.failing false).Solves E R) (hc : c.Ascends)
    (h' : (c.failing true).Solves E R') (hj : j ∈ c.jobs)
    (hno : ∀ d ∈ c.jobs, Graph.levelOf c.levels d.name < Graph.levelOf c.levels j.name → R d.name ≠ .failure) :
    R j.name = R' j.name := by
  induction hl : Graph.levelOf c.levels j.name using Nat.strong_induction_on generalizing j with
  | _ l ih =>
    have hearlier : ∀ d ∈ c.jobs, Graph.levelOf c.levels d.name < Graph.levelOf c.levels j.name →
        R d.name = R' d.name :=
      fun d hd hlt => ih _ (hl ▸ hlt) hd (fun k hk hkd => hno k hk (hkd.trans hlt)) rfl
    have hdue : (c.failing false).isDue R j = (c.failing true).isDue R' j :=
      isDue_congr hj fun d hpre => hearlier d hpre.1 (hc d j hpre)
    have hcut : (c.failing false).isCut R j = false := rfl
    -- what would cut the other run short would be a failure here
    have hcut' : (c.failing true).isCut R' j = false := by
      rw [Bool.eq_false_iff, ne_eq, isCut_iff]
      rintro ⟨-, d, hd, hlt, hfail⟩
      exact hno d hd hlt ((hearlier d hd hlt).trans hfail)
    rw [h j hj, h' j hj, hdue, hcut, hcut']

/-- Up to the level of the first failure the results are the same, so that it is the same level. -/
theorem Solves.agree_to_level (h : (c.failing false).Solves E R) (hc : c.Ascends) (h' : (c.failing true).Solves E R')
    (hl : FirstFailure c.jobs c.levels R l) :
    FirstFailure c.jobs c.levels R' l ∧ ∀ j ∈ c.jobs, Graph.levelOf c.levels j.name ≤ l → R j.name = R' j.name := by
  have hagree : ∀ j ∈ c.jobs, Graph.levelOf c.levels j.name ≤ l → R j.name = R' j.name := fun j hj hle =>
    h.agree_to_failure hc h' hj fun d hd hlt => hl.ne_failure hd (hlt.trans_le hle)
  refine ⟨⟨?_, ?_⟩, hagree⟩
  · obtain ⟨j, hj, hlevel, hfail⟩ := hl.1
    exact ⟨j, hj, hlevel, by rw [← hagree j hj hlevel.le]; exact hfail⟩
  · rintro _ ⟨j, hj, rfl, hfail⟩
    by_contra hlt
    rw [not_le] at hlt
    exact hl.ne_failure hj hlt ((hagree j hj hlt.le).trans hfail)

theorem Solves.firstFailure_iff (h : (c.failing false).Solves E R) (hc : c.Ascends)
    (h' : (c.failing true).Solves E R') : FirstFailure c.jobs c.levels R l ↔ FirstFailure c.jobs c.levels R' l := by
  constructor
  · exact fun hl => (h.agree_to_level hc h' hl).1
  · intro hl
    obtain ⟨j, hj, -, hfail⟩ := hl.1
    have hsome : ∃ k ∈ c.jobs, R k.name = .failure := by
      by_contra hno
      push Not at hno
      exact hno j hj ((h.agree_to_failure hc h' hj fun d hd _ => hno d hd).trans hfail)
    obtain ⟨k, hk, hkfail⟩ := hsome
    obtain ⟨l', hl'⟩ : ∃ l', FirstFailure c.jobs c.levels R l' := exists_firstFailure hk hkfail
    rw [hl.unique (h.agree_to_level hc h' hl').1]
    exact hl'

/-- After the level of the first failure nothing is executed in a run that fails fast, and what is due is cancelled. -/
theorem Solves.after_failure (h : (c.failing true).Solves E R) (hl : FirstFailure c.jobs c.levels R l) (hj : j ∈ c.jobs)
    (hlt : l < Graph.levelOf c.levels j.name) :
    (c.failing true).executes R j = false ∧ R j.name = if c.isDue R j then .cancelled else .skipped := by
  have hdue : (c.failing true).isDue R j = c.isDue R j := rfl
  have hcut : (c.failing true).isCut R j = true := by
    obtain ⟨d, hd, hlevel, hfail⟩ := hl.1
    exact isCut_iff.2 ⟨rfl, d, hd, lt_of_eq_of_lt hlevel hlt, hfail⟩
  constructor
  · rw [executes, hcut, Bool.not_true, Bool.and_false]
  · rw [h j hj, hdue, hcut]
    cases c.isDue R j <;> rfl

end Setting

/-! ## The two runs -/

namespace Run

section

variable {jobs : List Job} {g : Graph} {levels : List (List String)} {t : Trigger} {o : RunOptions} {h h' : Host}
  {execute : Executor}

/-- Outcomes that two lists of calls share, if what comes of a job is the same in both. -/
theorem exists_outcomes {cs cs' : List Call} (hnd : (cs.map (·.1.name)).Nodup) (hnd' : (cs'.map (·.1.name)).Nodup)
    (hsame : ∀ c ∈ cs, ∀ c' ∈ cs', c.1.name = c'.1.name → c.2 = c'.2) :
    ∃ E : Outcomes, (∀ c ∈ cs, E c.1.name = c.2) ∧ ∀ c ∈ cs', E c.1.name = c.2 := by
  refine ⟨fun n => if n ∈ cs.map (·.1.name) then outcomesOf cs n else outcomesOf cs' n, fun c hm => ?_, fun c hm => ?_⟩
  · simp only [if_pos (List.mem_map.2 ⟨c, hm, rfl⟩ : c.1.name ∈ cs.map (·.1.name))]
    exact outcomesOf_eq hnd c hm
  · simp only
    split
    · rename_i hmem
      obtain ⟨d, hd, hname⟩ := List.mem_map.1 hmem
      rw [← hname, outcomesOf_eq hnd d hd]
      exact hsame d hd c hm hname
    · exact outcomesOf_eq hnd' c hm

theorem calls_eq_map {cs : List Call} {E : Outcomes} (hE : ∀ c ∈ cs, E c.1.name = c.2) :
    cs = (cs.map (·.1)).map fun j => (j, E j.name) := by
  rw [List.map_map]
  refine (List.map_id cs).symm.trans (List.map_congr_left fun c hm => ?_)
  exact Prod.ext rfl (hE c hm).symm

/-- The run with the options `o'` is the one with the options `o` cut short: it makes the first of its
calls, and if that one returns so does it. Without a failure the results are the same; else they are so
up to the first level with a failure, and after it no job is executed and those that are due are cancelled. -/
structure CutsShort (jobs : List Job) (levels : List (List String)) (t : Trigger) (o o' : RunOptions)
    (execute : Executor) (h h' : Host) : Prop where
  prefix_calls : calls jobs t o' execute h' <+: calls jobs t o execute h
  returns : (∀ w, o.workers = some w → 1 ≤ w) → (∀ c ∈ calls jobs t o execute h, interruption? c.2 = none) →
    ∃ rs, ((run jobs t o execute).on h).1 = .ok rs
  agree : ∀ rs, ((run jobs t o execute).on h).1 = .ok rs → ∃ R R' : String → JobResult,
    rs = (levels.flatten.map fun n => (n, R n)) ∧
    ((run jobs t o' execute).on h').1 = .ok (levels.flatten.map fun n => (n, R' n)) ∧
    ((∀ j ∈ jobs, R j.name ≠ .failure) → ((run jobs t o' execute).on h').1 = .ok rs) ∧
    (∀ l, FirstFailure jobs levels R l ↔ FirstFailure jobs levels R' l) ∧
    (∀ l, FirstFailure jobs levels R l → ∀ j ∈ jobs, Graph.levelOf levels j.name ≤ l → R' j.name = R j.name) ∧
    ∀ c ∈ calls jobs t o' execute h', R' c.1.name = R c.1.name
  cut : ∀ rs, ((run jobs t o' execute).on h').1 = .ok rs → ∃ R' : String → JobResult,
    rs = (levels.flatten.map fun n => (n, R' n)) ∧
    ∀ l, FirstFailure jobs levels R' l →
      (∀ c ∈ calls jobs t o' execute h', Graph.levelOf levels c.1.name ≤ l) ∧
      ∀ j ∈ jobs, l < Graph.levelOf levels j.name →
        R' j.name = if (settingOf jobs levels t o' h').isDue R' j then .cancelled else .skipped

theorem settingOf_failing (hplatform : platformOf o h = platformOf o h') (fast : Bool) :
    settingOf jobs levels t { o with failFast := fast } h' = (settingOf jobs levels t o h).failing fast :=
  congrArg (fun p => Setting.mk jobs levels t p fast) hplatform.symm

/-- A run that fails fast and returns has executed nothing after the level of the first failure. -/
theorem run_cut (hg : Graph.ofJobs jobs = .ok g) (hl : g.levels = .ok levels) {rs : List (String × JobResult)}
    (hrun : ((run jobs t { o with failFast := true } execute).on h).1 = .ok rs) :
    ∃ R' : String → JobResult, rs = (levels.flatten.map fun n => (n, R' n)) ∧
      ∀ l, FirstFailure jobs levels R' l →
        (∀ c ∈ calls jobs t { o with failFast := true } execute h, Graph.levelOf levels c.1.name ≤ l) ∧
        ∀ j ∈ jobs, l < Graph.levelOf levels j.name → R' j.name =
          if (settingOf jobs levels t { o with failFast := true } h).isDue R' j then .cancelled else .skipped := by
  obtain ⟨R', hrs, hR', hcalled⟩ := run_solves hg hl execute hrun
  rw [settingOf_failing rfl] at hR' hcalled ⊢
  refine ⟨R', hrs, fun l hfirst => ⟨fun c hm => ?_, fun j hj hlt => (hR'.after_failure hfirst hj hlt).2⟩⟩
  obtain ⟨hj, -⟩ := calls_real hg hl c hm
  by_contra hlt
  have hexecutes := (hcalled c.1 hj).2 ⟨c, hm, rfl⟩
  rw [(hR'.after_failure hfirst hj (Nat.lt_of_not_le hlt)).1] at hexecutes
  cases hexecutes

theorem sceneOf_failing (hplatform : platformOf o h = platformOf o h') (levels : List (List String)) (fast : Bool) :
    sceneOf jobs t { o with failFast := fast } h' = ((settingOf jobs levels t o h).failing fast).scene :=
  congrArg (fun p => RunScene.mk (Groups.ofJobs jobs) t p fast) hplatform.symm

theorem course_failFast (hg : Graph.ofJobs jobs = .ok g) (hl : g.levels = .ok levels)
    (hplatform : platformOf o h = platformOf o h') {E : Outcomes} {rs : List (String × JobResult)}
    (hcourse : course jobs levels t { o with failFast := false } E h = .ok rs) :
    ∃ rs', course jobs levels t { o with failFast := true } E h' = .ok rs' := by
  have hc : (settingOf jobs levels t { o with failFast := false } h).Leveled := leveled hg hl
  unfold course at hcourse ⊢
  rw [sceneOf_failing rfl levels] at hcourse
  rw [sceneOf_failing hplatform levels]
  cases hp : (levels.map (named jobs)).foldlM (courseLevel ((settingOf jobs levels t o h).failing false).scene
      (workers { o with failFast := false } h) E) {} with
  | error f => rw [hp] at hcourse; cases hcourse
  | ok p =>
    obtain ⟨p', hp'⟩ := Setting.course_failing hc (workers_lt_one_iff o h' h) levels [] {} p hc.reaches_start hp
    exact ⟨inOrder levels p'.results, congrArg (Except.map fun p => inOrder levels p.results) hp'⟩

/-- The two runs, if what comes of a job that both execute is the same. -/
theorem cutsShort_of_same (hg : Graph.ofJobs jobs = .ok g) (hl : g.levels = .ok levels)
    (hplatform : platformOf o h = platformOf o h')
    (hsame : ∀ c ∈ calls jobs t { o with failFast := false } execute h,
      ∀ c' ∈ calls jobs t { o with failFast := true } execute h', c.1 = c'.1 → c.2 = c'.2) :
    CutsShort jobs levels t { o with failFast := false } { o with failFast := true } execute h h' := by
  have hc : (settingOf jobs levels t o h).Leveled := leveled hg hl
  obtain ⟨E, hE, hE'⟩ := exists_outcomes (nodup_calls hg hl execute) (nodup_calls hg hl execute)
    fun c hm c' hm' hname => hsame c hm c' hm' (List.inj_on_of_nodup_map hc.wellFormed.names_nodup
      (calls_real hg hl c hm).1 (calls_real hg hl c' hm').1 hname)
  obtain ⟨hcourse, hjobs, -⟩ := run_eq_course hg hl t { o with failFast := false } execute h hE
  obtain ⟨hcourse', hjobs', -⟩ := run_eq_course hg hl t { o with failFast := true } execute h' hE'
  have hfirst : calls jobs t { o with failFast := true } execute h' <+:
      calls jobs t { o with failFast := false } execute h := by
    rw [calls_eq_map hE, calls_eq_map hE', hjobs, hjobs', sceneOf_failing hplatform levels, sceneOf_failing rfl levels]
    exact (prefix_courseJobs (s := ((settingOf jobs levels t o h).failing false).scene) (workers_lt_one_iff o h' h)
      (levels.map (named jobs)) {}).map _
  refine ⟨hfirst, fun ho hnone => ?_, fun rs hrun => ?_, fun rs hrun => run_cut hg hl hrun⟩
  · obtain ⟨rs, h', hrun⟩ := run_ok hg hl ho fun c hm => settles_iff.2 (hnone c hm)
    exact ⟨rs, by rw [hrun]⟩
  rw [hcourse] at hrun
  obtain ⟨rs', hrun'⟩ := course_failFast hg hl hplatform hrun
  obtain ⟨R, rfl, hR, hexecuted⟩ := course_solves hg hl hrun
  obtain ⟨R', rfl, hR', hexecuted'⟩ := course_solves hg hl hrun'
  rw [settingOf_failing rfl] at hR hexecuted
  rw [settingOf_failing hplatform] at hR' hexecuted'
  rw [hcourse', hrun']
  refine ⟨R, R', rfl, rfl, fun hno => ?_, fun l => hR.firstFailure_iff hc.ascends hR',
    fun l hl j hj hle => ((hR.agree_to_level hc.ascends hR' hl).2 j hj hle).symm, fun c hm => ?_⟩
  · congr 1
    refine List.map_congr_left fun n hn => ?_
    obtain ⟨j, hj, rfl⟩ := List.mem_map.1 (hc.perm.mem_iff.1 hn)
    rw [hR.agree_to_failure hc.ascends hR' hj fun d hd _ => hno d hd]
  · -- both execute the job, and so it ends in both as its execution does
    have hmem := List.mem_map_of_mem (f := Prod.fst) (hfirst.subset hm)
    have hmem' := List.mem_map_of_mem (f := Prod.fst) hm
    rw [hjobs, hexecuted, List.mem_filter] at hmem
    rw [hjobs', hexecuted', List.mem_filter] at hmem'
    have hj := (mem_of_mem_named hmem.1).1
    rw [(hR.solvesBefore _).eq_of_executes hj (Nat.lt_succ_self _) hmem.2,
      (hR'.solvesBefore _).eq_of_executes hj (Nat.lt_succ_self _) hmem'.2]

/-- On one host, the two runs have been the same as long as both execute jobs. -/
theorem same_on_host (hg : Graph.ofJobs jobs = .ok g) (hl : g.levels = .ok levels) :
    ∀ c ∈ calls jobs t { o with failFast := false } execute h,
      ∀ c' ∈ calls jobs t { o with failFast := true } execute h, c.1 = c'.1 → c.2 = c'.2 := by
  intro c hm c' hm' hcc
  have hfirst : calls jobs t { o with failFast := true } execute h <+:
      calls jobs t { o with failFast := false } execute h := by
    rw [calls_eq hg hl, calls_eq hg hl]
    exact prefix_callsFrom (sceneOf jobs t { o with failFast := false } h) { o with failFast := false } _ execute _ {} h
  rw [List.inj_on_of_nodup_map (nodup_calls hg hl execute) hm (hfirst.subset hm') (by rw [hcc])]

end

/-- An executor with which each of the jobs comes to the same on every host. -/
def Deterministic (jobs : List Job) (execute : Executor) : Prop := ∀ j ∈ jobs, ∃ x, (execute j).Gives x

/-- To fail fast only cuts a run short. On one host this is so with every executor, and on two hosts of
one platform with every deterministic one. -/
theorem run_failFast {jobs : List Job} {g : Graph} {levels : List (List String)} (hg : Graph.ofJobs jobs = .ok g)
    (hl : g.levels = .ok levels) (t : Trigger) (o : RunOptions) (execute : Executor) :
    (∀ h, CutsShort jobs levels t { o with failFast := false } { o with failFast := true } execute h h) ∧
    ∀ h h', platformOf o h = platformOf o h' → Deterministic jobs execute →
      CutsShort jobs levels t { o with failFast := false } { o with failFast := true } execute h h' := by
  refine ⟨fun h => cutsShort_of_same hg hl rfl (same_on_host hg hl), fun h h' hplatform hexec =>
    cutsShort_of_same hg hl hplatform fun c hm c' hm' hcc => ?_⟩
  obtain ⟨hj, h₁, hx⟩ := calls_real hg hl c hm
  obtain ⟨-, h₁', hx'⟩ := calls_real hg hl c' hm'
  obtain ⟨x, hgives⟩ := hexec c.1 hj
  rw [← hx, ← hx', ← hcc, hgives, hgives]

theorem deterministic_sample : Deterministic Sample.jobs Sample.execute := by
  intro j _
  unfold Sample.execute
  split
  · exact ⟨_, Act.gives_fail _⟩
  · exact ⟨_, Act.gives_pure _⟩

/-- The check fails in the first level, on a host and on one with fewer processors. -/
theorem run_failFast_sample :
    CutsShort Sample.jobs Sample.levels Sample.trigger { failFast := false } { failFast := true } Sample.execute
      Sample.host Sample.host ∧
    CutsShort Sample.jobs Sample.levels Sample.trigger { failFast := false } { failFast := true } Sample.execute
      Sample.host { Sample.host with processors := some 1 } := by
  obtain ⟨hsame, htwo⟩ := run_failFast Sample.ofJobs_jobs Sample.levels_jobs Sample.trigger {} Sample.execute
  exact ⟨hsame Sample.host, htwo Sample.host { Sample.host with processors := some 1 } rfl deterministic_sample⟩

end Run

end CiPipeline
