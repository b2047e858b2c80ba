import CiPipeline.Proofs.Gate
import CiPipeline.Proofs.Run.Discipline

/-
Failures are contained: `failures_contained`. Under the default gate a job is due only if everything
that it needs has succeeded. So a failure shuts the gates of all jobs that come after it, directly or
not, provided that it shuts those of a whole group or of no member of it: a group one of whose members
succeeds counts as a success, however many are skipped (`exists_unsuccessful`).
-/

namespace CiPipeline

/-- Every job waits for the success of all that it needs. -/
def DefaultGates (jobs : List Job) : Prop := ∀ j ∈ jobs, j.gateOrDefault = .needsSucceeded

/-- The members of a group need the same. -/
def SharedNeeds (jobs : List Job) : Prop :=
  ∀ d ∈ jobs, ∀ j ∈ jobs, ∀ group, d.MemberOf group → j.MemberOf group → ∀ need, need ∈ d.needs ↔ need ∈ j.needs

namespace Setting

variable {c : Setting} {E R : String → JobResult} {d j : Job}

/-- A job that is due needs nothing that has not succeeded. -/
theorem isDue_of_needsSucceeded (hgate : j.gateOrDefault = .needsSucceeded) (hdue : c.isDue R j = true) :
    ∀ need ∈ j.needs, seen c.jobs R need = .success := by
  rw [isDue, Bool.and_eq_true, hgate, Job.needsSucceeded_sees] at hdue
  exact hdue.1

theorem SolvesBefore.eq_skipped {l : Nat} (h : c.SolvesBefore l E R) (hj : j ∈ c.jobs)
    (hlt : Graph.levelOf c.levels j.name < l) (hdue : c.isDue R j = false) : R j.name = .skipped := by
  rw [h j hj hlt, hdue]
  rfl

/-- A job after one that failed or was cancelled needs something that has not succeeded. -/
theorem exists_unsuccessful (hc : c.Ascends) (hgates : DefaultGates c.jobs) (hneeds : SharedNeeds c.jobs)
    (hbad : R d.name = .failure ∨ R d.name = .cancelled) (hpath : Relation.TransGen (Precedes c.jobs) d j)
    (h : c.SolvesBefore (Graph.levelOf c.levels j.name) E R) : ∃ need ∈ j.needs, seen c.jobs R need ≠ .success := by
  induction hpath with
  | @single j hpre =>
    obtain ⟨hd, -, need, hneed, rfl | ⟨hname, hmember⟩⟩ := hpre
    · refine ⟨d.name, hneed, ?_⟩
      rw [seen_of_name R (List.mem_map.2 ⟨d, hd, rfl⟩)]
      rcases hbad with hbad | hbad <;> rw [hbad] <;> nofun
    · refine ⟨need, hneed, fun hseen => ?_⟩
      rw [seen_eq_success hname] at hseen
      have hspared := hseen.2 d.name (mem_membersOf.2 ⟨d, hd, hmember, rfl⟩)
      exact hbad.elim hspared.1 hspared.2
  | @tail k j _ hpre ih =>
    -- a job that precedes `j` is skipped if it needs something that has not succeeded
    have hskipped : ∀ k, Precedes c.jobs k j → (∃ need ∈ k.needs, seen c.jobs R need ≠ .success) →
        R k.name = .skipped := by
      rintro k hk ⟨need, hneed, hseen⟩
      refine h.eq_skipped hk.1 (hc k j hk) (Bool.eq_false_iff.2 fun hdue => hseen ?_)
      exact isDue_of_needsSucceeded (hgates k hk.1) hdue need hneed
    have hk := ih (h.mono (hc k j hpre).le)
    have hkskipped := hskipped k hpre hk
    obtain ⟨hkmem, hjmem, need, hneed, rfl | ⟨hname, hmember⟩⟩ := hpre
    · refine ⟨k.name, hneed, ?_⟩
      rw [seen_of_name R (List.mem_map.2 ⟨k, hkmem, rfl⟩), hkskipped]
      nofun
    · -- with `k` its whole group is skipped
      refine ⟨need, hneed, fun hseen => ?_⟩
      rw [seen_eq_success hname] at hseen
      obtain ⟨n, hn, hsuccess⟩ := hseen.1
      obtain ⟨m, hm, hmmember, rfl⟩ := mem_membersOf.1 hn
      obtain ⟨need', hneed', hunsuccessful⟩ := hk
      have hmneed : need' ∈ m.needs := (hneeds k hkmem m hm need hmember hmmember need').1 hneed'
      rw [hskipped m ⟨hm, hjmem, need, hneed, .inr ⟨hname, hmmember⟩⟩ ⟨need', hmneed, hunsuccessful⟩] at hsuccess
      cases hsuccess

theorem Ascends.transGen (hc : c.Ascends)
    (hpath : Relation.TransGen (Precedes c.jobs) d j) :
    Graph.levelOf c.levels d.name < Graph.levelOf c.levels j.name := by
  induction hpath with
  | single hpre => exact hc _ _ hpre
  | tail _ hpre ih => exact ih.trans (hc _ _ hpre)

theorem isDue_after_failure (hc : c.Ascends) (hgates : DefaultGates c.jobs) (hneeds : SharedNeeds c.jobs)
    (hbad : R d.name = .failure ∨ R d.name = .cancelled) (hpath : Relation.TransGen (Precedes c.jobs) d j)
    (hj : j ∈ c.jobs) (h : c.SolvesBefore (Graph.levelOf c.levels j.name) E R) : c.isDue R j = false := by
  obtain ⟨need, hneed, hseen⟩ := exists_unsuccessful hc hgates hneeds hbad hpath h
  exact Bool.eq_false_iff.2 fun hdue => hseen (isDue_of_needsSucceeded (hgates j hj) hdue need hneed)

end Setting

namespace Run

section

variable {jobs : List Job} {g : Graph} {levels : List (List String)} {t : Trigger} {o : RunOptions} {h : Host}

theorem mem_of_transGen {d j : Job} (hpath : Relation.TransGen (Precedes jobs) d j) : d ∈ jobs ∧ j ∈ jobs := by
  obtain ⟨_, hfirst, -⟩ := Relation.TransGen.head'_iff.1 hpath
  obtain ⟨_, -, hlast⟩ := Relation.TransGen.tail'_iff.1 hpath
  exact ⟨hfirst.1, hlast.2.1⟩

/-- A run in which failures are contained: whatever comes after a job that failed or was cancelled,
directly or not, is not executed and ends as skipped; and in a run that does not return, no job is
executed after one that failed either. -/
structure Contains (jobs : List Job) (t : Trigger) (o : RunOptions) (execute : Executor) (h : Host) : Prop where
  returns : (∀ w, o.workers = some w → 1 ≤ w) → (∀ c ∈ calls jobs t o execute h, interruption? c.2 = none) →
    ∃ rs, ((run jobs t o execute).on h).1 = .ok rs
  skipped : ∀ rs, ((run jobs t o execute).on h).1 = .ok rs → ∀ d j, Relation.TransGen (Precedes jobs) d j →
    (d.name, .failure) ∈ rs ∨ (d.name, .cancelled) ∈ rs →
      (∀ c ∈ calls jobs t o execute h, c.1 ≠ j) ∧ ∀ r, (j.name, r) ∈ rs ↔ r = .skipped
  called : ∀ c ∈ calls jobs t o execute h, ∀ c' ∈ calls jobs t o execute h,
    Relation.TransGen (Precedes jobs) c.1 c'.1 → ended c.2 ≠ .failure ∧ ended c.2 ≠ .cancelled

theorem skipped_after_failure (hg : Graph.ofJobs jobs = .ok g) (hl : g.levels = .ok levels)
    (hgates : DefaultGates jobs) (hneeds : SharedNeeds jobs) {execute : Executor} {rs : List (String × JobResult)}
    (hrun : ((run jobs t o execute).on h).1 = .ok rs) {d j : Job} (hpath : Relation.TransGen (Precedes jobs) d j)
    (hbad : (d.name, .failure) ∈ rs ∨ (d.name, .cancelled) ∈ rs) :
    (∀ c ∈ calls jobs t o execute h, c.1 ≠ j) ∧ ∀ r, (j.name, r) ∈ rs ↔ r = .skipped := by
  have hc : (settingOf jobs levels t o h).Leveled := leveled hg hl
  obtain ⟨hd, hj⟩ := mem_of_transGen hpath
  have hdplaced : d.name ∈ levels.flatten := hc.mem_flatten hd
  have hjplaced : j.name ∈ levels.flatten := hc.mem_flatten hj
  obtain ⟨R, rfl, hR, hcalled⟩ := run_solves hg hl execute hrun
  rw [mem_results hdplaced, mem_results hdplaced] at hbad
  have hdue := Setting.isDue_after_failure hc.ascends hgates hneeds hbad hpath hj (hR.solvesBefore _)
  refine ⟨?_, fun r => ?_⟩
  · rintro c hm rfl
    have hexecutes := (hcalled c.1 hj).2 ⟨c, hm, rfl⟩
    rw [Setting.executes, hdue] at hexecutes
    cases hexecutes
  · rw [mem_results hjplaced, hR j hj, hdue]
    exact eq_comm

theorem not_called_after_failure (hg : Graph.ofJobs jobs = .ok g) (hl : g.levels = .ok levels)
    (hgates : DefaultGates jobs) (hneeds : SharedNeeds jobs) {execute : Executor} {c c' : Call}
    (hm : c ∈ calls jobs t o execute h) (hm' : c' ∈ calls jobs t o execute h)
    (hpath : Relation.TransGen (Precedes jobs) c.1 c'.1) : ended c.2 ≠ .failure ∧ ended c.2 ≠ .cancelled := by
  have hc : (settingOf jobs levels t o h).Leveled := leveled hg hl
  obtain ⟨R, hR⟩ := calls_decides hg hl t o execute h
  have hk := List.mem_map_of_mem (f := Prod.fst) hm'
  have hlt : Graph.levelOf levels c.1.name < Graph.levelOf levels c'.1.name := hc.ascends.transGen hpath
  obtain ⟨hd, hj⟩ := mem_of_transGen hpath
  -- both are executed, so the first ended as its execution did, and the second is due
  have hended : R c.1.name = ended c.2 := by
    rw [(hR.solves c'.1 hk).eq_of_executes hd hlt ((hR.executes c'.1 hk c.1 hd hlt.le).2 (List.mem_map_of_mem hm)),
      outcomes_eq hg hl execute c hm]
  have hexecutes := (hR.executes c'.1 hk c'.1 hj le_rfl).2 hk
  rw [Setting.executes, Bool.and_eq_true] at hexecutes
  have hno : ¬ (ended c.2 = .failure ∨ ended c.2 = .cancelled) := by
    intro hbad
    rw [← hended] at hbad
    rw [Setting.isDue_after_failure hc.ascends hgates hneeds hbad hpath hj (hR.solves c'.1 hk)] at hexecutes
    exact Bool.false_ne_true hexecutes.1
  exact not_or.1 hno

end

/-- If all gates are the default one and the members of a group need the same, failures are contained. -/
theorem failures_contained {jobs : List Job} {g : Graph} {levels : List (List String)} (hg : Graph.ofJobs jobs = .ok g)
    (hl : g.levels = .ok levels) (hgates : DefaultGates jobs) (hneeds : SharedNeeds jobs) (t : Trigger)
    (o : RunOptions) (execute : Executor) (h : Host) : Contains jobs t o execute h where
  returns ho hnone := by
    obtain ⟨rs, h', hrun⟩ := run_ok hg hl ho fun c hm => settles_iff.2 (hnone c hm)
    exact ⟨rs, by rw [hrun]⟩
  skipped _ hrun _ _ hpath hbad := skipped_after_failure hg hl hgates hneeds hrun hpath hbad
  called _ hm _ hm' hpath := not_called_after_failure hg hl hgates hneeds hm hm' hpath

end Run

/-- The build fails, and everything else succeeds. -/
def Sample.broken : Executor := fun j => if j.name = "build" then .fail (.os .denied "build") else pure .success

namespace Run

/-- What comes after the build that fails, a group and what needs it, is skipped. -/
theorem failures_contained_sample :
    DefaultGates Sample.jobs ∧ SharedNeeds Sample.jobs ∧
      Contains Sample.jobs Sample.trigger {} Sample.broken Sample.host := by
  have hgates : DefaultGates Sample.jobs := by
    intro j hj
    simp only [Sample.jobs, List.mem_cons, List.not_mem_nil, or_false] at hj
    rcases hj with rfl | rfl | rfl | rfl | rfl <;> rfl
  have hneeds : SharedNeeds Sample.jobs := by
    intro d hd j hj group hdmember hjmember need
    simp only [Sample.jobs, List.mem_cons, List.not_mem_nil, or_false] at hd hj
    rcases hd with rfl | rfl | rfl | rfl | rfl <;> rcases hj with rfl | rfl | rfl | rfl | rfl <;>
      simp_all [Job.MemberOf]
  exact ⟨hgates, hneeds, failures_contained Sample.ofJobs_jobs Sample.levels_jobs hgates hneeds _ _ _ _⟩

end Run

end CiPipeline
