import CiPipeline.Proofs.Gate
import CiPipeline.Proofs.Levels
import CiPipeline.Run.Verdict

/-
What the results of a run mean. A job sees its needs under the results of the jobs that they name,
or the aggregates of the groups; it is due if its gate is open on what it sees and the platform is
its own; and a job that is due ends as its execution does, unless the run is cut short by a failure
in an earlier level. `Setting.Solves` says this as one equation for each job. As the levels ascend
along the precedence, the equations have one solution at most (`Setting.Solves.agree`).
-/

namespace CiPipeline

/-! ## What a job sees -/

/-- The aggregate of some results depends on which results there are only. -/
theorem JobResult.aggregate_congr {xs ys : List JobResult} (h : ∀ r, r ∈ xs ↔ r ∈ ys) :
    JobResult.aggregate xs = JobResult.aggregate ys := by
  have hcontains : ∀ r, xs.contains r = ys.contains r := fun r => by
    rw [Bool.eq_iff_iff, List.contains_iff_mem, List.contains_iff_mem]; exact h r
  unfold JobResult.aggregate
  simp only [hcontains]

theorem JobResult.aggregate_eq_success {rs : List JobResult} :
    JobResult.aggregate rs = .success ↔ .success ∈ rs ∧ .failure ∉ rs ∧ .cancelled ∉ rs := by
  unfold JobResult.aggregate
  simp only [List.contains_iff_mem]
  by_cases hf : JobResult.failure ∈ rs
  · simp [hf]
  by_cases hc : JobResult.cancelled ∈ rs
  · simp [hf, hc]
  by_cases hs : JobResult.success ∈ rs <;> simp [hf, hc, hs]

/-- The result under which a need is seen: that of the job of this name, or else the aggregate of
those of the members of the group. -/
def seen (jobs : List Job) (R : String → JobResult) (need : String) : JobResult :=
  if need ∈ jobs.map (·.name) then R need else JobResult.aggregate ((membersOf jobs need).map R)

theorem seen_of_name {jobs : List Job} (R : String → JobResult) {need : String} (h : need ∈ jobs.map (·.name)) :
    seen jobs R need = R need :=
  if_pos h

/-- A group is seen as a success if one of its members succeeded, and none failed or was cancelled. -/
theorem seen_eq_success {jobs : List Job} {R : String → JobResult} {need : String} (h : need ∉ jobs.map (·.name)) :
    seen jobs R need = .success ↔ (∃ n ∈ membersOf jobs need, R n = .success) ∧
      ∀ n ∈ membersOf jobs need, R n ≠ .failure ∧ R n ≠ .cancelled := by
  rw [seen, if_neg h, JobResult.aggregate_eq_success, List.mem_map]
  refine and_congr_right fun _ => ⟨?_, ?_⟩
  · rintro ⟨hfailure, hcancelled⟩ n hn
    exact ⟨fun hR => hfailure (List.mem_map.2 ⟨n, hn, hR⟩), fun hR => hcancelled (List.mem_map.2 ⟨n, hn, hR⟩)⟩
  · intro hno
    constructor
    · intro hmem
      obtain ⟨n, hn, hR⟩ := List.mem_map.1 hmem
      exact (hno n hn).1 hR
    · intro hmem
      obtain ⟨n, hn, hR⟩ := List.mem_map.1 hmem
      exact (hno n hn).2 hR

/-- What the gate of a job sees: its needs with the results under which they are seen. -/
def Job.sees (jobs : List Job) (R : String → JobResult) (j : Job) : Dict JobResult :=
  Dict.ofList (j.needs.map fun need => (need, seen jobs R need))

theorem Job.get?_sees (jobs : List Job) (R : String → JobResult) (j : Job) (n : String) :
    (j.sees jobs R).get? n = if n ∈ j.needs then some (seen jobs R n) else none :=
  Dict.get?_ofList_map _ _ _

theorem Job.mem_values_sees {jobs : List Job} {R : String → JobResult} {j : Job} {r : JobResult} :
    r ∈ (j.sees jobs R).values ↔ ∃ need ∈ j.needs, seen jobs R need = r :=
  Dict.mem_values_ofList_map

theorem Job.allSucceeded_sees {jobs : List Job} {R : String → JobResult} {j : Job} {names : List String} :
    Gate.allSucceeded (j.sees jobs R) names = true ↔ ∀ n ∈ names, n ∈ j.needs ∧ seen jobs R n = .success := by
  rw [Gate.allSucceeded_iff]
  refine forall₂_congr fun n _ => ?_
  rw [Job.get?_sees]
  split
  · rename_i hn
    rw [Option.some_inj, and_iff_right hn]
  · rename_i hn
    exact iff_of_false nofun fun h => hn h.1

theorem Job.needsSucceeded_sees {jobs : List Job} {R : String → JobResult} {j : Job} {t : Trigger} :
    Gate.needsSucceeded.isOpen (j.sees jobs R) t = true ↔ ∀ n ∈ j.needs, seen jobs R n = .success := by
  rw [Gate.needsSucceeded_iff]
  constructor
  · intro h n hn
    exact h _ (Job.mem_values_sees.2 ⟨n, hn, rfl⟩)
  · rintro h r hr
    obtain ⟨n, hn, rfl⟩ := Job.mem_values_sees.1 hr
    exact h n hn

/-- Whether a job is for a platform other than this one. -/
def Job.isElsewhere (j : Job) (platform : String) : Bool := j.runsOn.any fun p => p != "" && p != platform

theorem Job.suits_eq (j : Job) (platform : String) : j.suits platform = !j.isElsewhere platform := by
  unfold Job.suits Job.isElsewhere
  cases j.runsOn with
  | none => rfl
  | some p => by_cases hp : p = "" <;> simp [Option.filter, hp, bne]

section

variable {jobs : List Job} {R R' : String → JobResult} {j : Job}

/-- What a job sees of a need depends on the jobs before it only. -/
theorem seen_congr (hj : j ∈ jobs) (h : ∀ d, Precedes jobs d j → R d.name = R' d.name) :
    ∀ need ∈ j.needs, seen jobs R need = seen jobs R' need := by
  intro need hneed
  unfold seen
  split
  · rename_i hname
    obtain ⟨d, hd, rfl⟩ := List.mem_map.1 hname
    exact h d ⟨hd, hj, d.name, hneed, .inl rfl⟩
  · rename_i hname
    congr 1
    refine List.map_congr_left fun n hn => ?_
    obtain ⟨d, hd, hm, rfl⟩ := mem_membersOf.1 hn
    exact h d ⟨hd, hj, need, hneed, .inr ⟨hname, hm⟩⟩

theorem Job.sees_congr (hj : j ∈ jobs) (h : ∀ d, Precedes jobs d j → R d.name = R' d.name) :
    j.sees jobs R = j.sees jobs R' := by
  unfold Job.sees
  congr 1
  exact List.map_congr_left fun need hneed => by rw [seen_congr hj h need hneed]

end

/-! ## The equations -/

/-- What the results of a run are determined by, besides what comes of the executions. -/
structure Setting where
  jobs : List Job
  levels : List (List String)
  trigger : Trigger
  platform : String
  failFast : Bool

namespace Setting

/-- The levels ascend along the precedence. -/
def Ascends (c : Setting) : Prop :=
  ∀ d j, Precedes c.jobs d j → Graph.levelOf c.levels d.name < Graph.levelOf c.levels j.name

/-- Whether a job is due: its gate is open and the platform is its own. -/
def isDue (c : Setting) (R : String → JobResult) (j : Job) : Bool :=
  j.gateOrDefault.isOpen (j.sees c.jobs R) c.trigger && !j.isElsewhere c.platform

/-- Whether the run has been cut short before a job: it is to fail fast, and a job of an earlier level failed. -/
def isCut (c : Setting) (R : String → JobResult) (j : Job) : Bool :=
  c.failFast && c.jobs.any fun d =>
    Graph.levelOf c.levels d.name < Graph.levelOf c.levels j.name && R d.name == .failure

/-- The results solve the equations: a job that is not due is skipped, one that is cut off is
cancelled, and any other ends as its execution does. -/
def Solves (c : Setting) (E R : String → JobResult) : Prop :=
  ∀ j ∈ c.jobs, R j.name = if !c.isDue R j then .skipped else if c.isCut R j then .cancelled else E j.name

/-- Whether a job is executed. -/
def executes (c : Setting) (R : String → JobResult) (j : Job) : Bool := c.isDue R j && !c.isCut R j

variable {c : Setting} {E E' R R' : String → JobResult} {j : Job}

theorem isDue_congr (hj : j ∈ c.jobs) (h : ∀ d, Precedes c.jobs d j → R d.name = R' d.name) :
    c.isDue R j = c.isDue R' j := by
  unfold isDue
  rw [j.sees_congr hj h]

theorem isCut_iff : c.isCut R j = true ↔ c.failFast = true ∧
    ∃ d ∈ c.jobs, Graph.levelOf c.levels d.name < Graph.levelOf c.levels j.name ∧ R d.name = .failure := by
  simp only [isCut, Bool.and_eq_true, List.any_eq_true, decide_eq_true_eq, beq_iff_eq]

theorem isCut_congr (h : ∀ d ∈ c.jobs, Graph.levelOf c.levels d.name < Graph.levelOf c.levels j.name →
    R d.name = R' d.name) : c.isCut R j = c.isCut R' j := by
  rw [Bool.eq_iff_iff, isCut_iff, isCut_iff]
  constructor
  · rintro ⟨hf, d, hd, hlt, hR⟩; exact ⟨hf, d, hd, hlt, by rw [← h d hd hlt]; exact hR⟩
  · rintro ⟨hf, d, hd, hlt, hR⟩; exact ⟨hf, d, hd, hlt, by rw [h d hd hlt]; exact hR⟩

/-- A job is not due and skipped, or cut off and cancelled, or it is executed and ends as its execution does. -/
theorem Solves.cases (h : c.Solves E R) (hj : j ∈ c.jobs) :
    c.isDue R j = false ∧ R j.name = .skipped ∨
      c.isDue R j = true ∧ c.isCut R j = true ∧ R j.name = .cancelled ∨
      c.executes R j = true ∧ R j.name = E j.name := by
  have heq := h j hj
  unfold executes
  cases hdue : c.isDue R j with
  | false => rw [hdue] at heq; exact .inl ⟨rfl, heq⟩
  | true =>
    cases hcut : c.isCut R j with
    | true => rw [hdue, hcut] at heq; exact .inr (.inl ⟨rfl, rfl, heq⟩)
    | false => rw [hdue, hcut] at heq; exact .inr (.inr ⟨rfl, heq⟩)

/-- The equations do not look at what would come of jobs that are not executed. -/
theorem Solves.congr (h : c.Solves E R) (hE : ∀ j ∈ c.jobs, c.executes R j = true → E' j.name = E j.name) :
    c.Solves E' R := by
  intro j hj
  rw [h j hj]
  cases hdue : c.isDue R j with
  | false => rfl
  | true =>
    cases hcut : c.isCut R j with
    | true => rfl
    | false => exact (hE j hj (by rw [executes, hdue, hcut]; rfl)).symm

/-- Two solutions agree, if the executions of the jobs that both of them execute end alike. -/
theorem Solves.agree (hc : c.Ascends) (h : c.Solves E R) (h' : c.Solves E' R')
    (hE : ∀ j ∈ c.jobs, c.executes R j = true → c.executes R' j = true → E j.name = E' j.name) :
    ∀ j ∈ c.jobs, R j.name = R' j.name := by
  intro j hj
  -- by strong induction on the level: all that the equation of `j` looks at is in earlier levels
  induction hl : Graph.levelOf c.levels j.name using Nat.strong_induction_on generalizing j with
  | _ l ih =>
    have hearlier : ∀ d ∈ c.jobs, Graph.levelOf c.levels d.name < Graph.levelOf c.levels j.name →
        R d.name = R' d.name :=
      fun d hd hlt => ih _ (hl ▸ hlt) d hd rfl
    have hdue := isDue_congr hj fun d hpre => hearlier d hpre.1 (hc d j hpre)
    have hcut := isCut_congr hearlier
    rw [h j hj, h' j hj, ← hdue, ← hcut]
    cases hd : c.isDue R j with
    | false => rfl
    | true =>
      cases hk : c.isCut R j with
      | true => rfl
      | false =>
        refine hE j hj ?_ ?_
        · rw [executes, hd, hk]; rfl
        · rw [executes, ← hdue, ← hcut, hd, hk]; rfl

/-- The equations have one solution at most. -/
theorem Solves.unique (hc : c.Ascends) (h : c.Solves E R) (h' : c.Solves E R') : ∀ j ∈ c.jobs, R j.name = R' j.name :=
  h.agree hc h' fun _ _ _ _ => rfl

end Setting

/-! ## The verdict on a job -/

section

variable {jobs : List Job} {R : String → JobResult} {results : Dict JobResult} {j : Job}

theorem needResult_eq (hwf : WellFormed jobs) (hj : j ∈ jobs)
    (hpre : ∀ d, Precedes jobs d j → results.get? d.name = some (R d.name))
    (hno : ∀ n, n ∉ jobs.map (·.name) → results.get? n = none) :
    ∀ need ∈ j.needs, needResult results (Groups.ofJobs jobs) need = .ok (seen jobs R need) := by
  intro need hneed
  unfold needResult seen
  split_ifs with hname
  · -- the name of a job is looked up as such, also if a group has it
    obtain ⟨d, hd, rfl⟩ := List.mem_map.1 hname
    have hget := hpre d ⟨hd, hj, d.name, hneed, .inl rfl⟩
    rw [hget]
    simp only [resultOf, hget]
    split <;> simp_all
  · have hne := membersOf_ne_nil.2 ((hwf.needs_known j hj need hneed).resolve_left hname)
    rw [hno need hname, Groups.get?_ofJobs, if_neg hne]
    have hall : ∀ n ∈ membersOf jobs need, resultOf results n = .ok (R n) := by
      intro n hn
      obtain ⟨d, hd, hm, rfl⟩ := mem_membersOf.1 hn
      rw [resultOf, hpre d ⟨hd, hj, need, hneed, .inr ⟨hname, hm⟩⟩]
    simp only
    rw [mapM_ok hall]
    rfl

/-- When all that precedes a job has its result, what its gate is shown is what it is to see. -/
theorem Job.view_eq (hwf : WellFormed jobs) (hj : j ∈ jobs)
    (hpre : ∀ d, Precedes jobs d j → results.get? d.name = some (R d.name))
    (hno : ∀ n, n ∉ jobs.map (·.name) → results.get? n = none) :
    j.view results (Groups.ofJobs jobs) = .ok (j.sees jobs R) := by
  have hall : ∀ need ∈ j.needs, (needResult results (Groups.ofJobs jobs) need).map (need, ·) =
      .ok (need, seen jobs R need) := fun need hneed => by
    rw [needResult_eq hwf hj hpre hno need hneed]; rfl
  rw [Job.view, mapM_ok hall]
  rfl

/-- The verdict on a job that is due or not, in a run that is halted or not. -/
def verdictOf (c : Setting) (R : String → JobResult) (halted : Bool) (j : Job) : Verdict :=
  if !j.gateOrDefault.isOpen (j.sees c.jobs R) c.trigger then .gateFalse
  else if j.isElsewhere c.platform then .otherPlatform
  else if halted then .cancelled
  else .run

theorem Job.decide_eq (c : Setting) (hwf : WellFormed c.jobs) (hj : j ∈ c.jobs)
    (hpre : ∀ d, Precedes c.jobs d j → results.get? d.name = some (R d.name))
    (hno : ∀ n, n ∉ c.jobs.map (·.name) → results.get? n = none) (halted : Bool) :
    j.decide results (Groups.ofJobs c.jobs) c.trigger c.platform halted = .ok (verdictOf c R halted j) := by
  rw [Job.decide, j.view_eq hwf hj hpre hno, verdictOf, Job.suits_eq, Bool.not_not]
  rfl

theorem verdictOf_eq_run {c : Setting} {halted : Bool} :
    verdictOf c R halted j = .run ↔ c.isDue R j = true ∧ halted = false := by
  unfold verdictOf Setting.isDue
  cases j.gateOrDefault.isOpen (j.sees c.jobs R) c.trigger <;> cases j.isElsewhere c.platform <;> cases halted <;> simp

theorem result_verdictOf {c : Setting} {halted : Bool} (h : verdictOf c R halted j ≠ .run) :
    (verdictOf c R halted j).result = if !c.isDue R j then .skipped else .cancelled := by
  revert h
  unfold verdictOf Setting.isDue
  cases j.gateOrDefault.isOpen (j.sees c.jobs R) c.trigger <;> cases j.isElsewhere c.platform <;> cases halted <;>
    simp [Verdict.result]

end

end CiPipeline
