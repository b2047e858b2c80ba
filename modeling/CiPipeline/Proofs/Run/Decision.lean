import CiPipeline.Proofs.Run.Solution

/-
What a run has decided, however it ends. A run that is broken off has settled the levels before the
one in which it ends, and the jobs of that level have been decided about as well (`course_reaches`).
So there are results that solve the equations of all levels before that of a call, and that ask for
just the calls that there are up to its level (`calls_decides`).
-/

namespace CiPipeline

/-- A fold that fails does so at one of its elements, and goes well up to there. -/
theorem foldlM_eq_error {α β ε : Type} {f : β → α → Except ε β} {e : ε} :
    ∀ {xs : List α} {b : β}, xs.foldlM f b = .error e →
      ∃ done x left b', xs = done ++ x :: left ∧ done.foldlM f b = .ok b' ∧ f b' x = .error e
  | [], _, h => by cases h
  | x :: xs, b, h => by
    rw [List.foldlM_cons] at h
    cases hx : f b x with
    | error e' =>
      rw [hx] at h
      cases h
      exact ⟨[], x, xs, b, rfl, rfl, hx⟩
    | ok b₁ =>
      rw [hx] at h
      have hrest : xs.foldlM f b₁ = .error e := h
      obtain ⟨done, y, left, b', rfl, hdone, hy⟩ := foldlM_eq_error hrest
      exact ⟨x :: done, y, left, b', rfl, by rw [List.foldlM_cons, hx]; exact hdone, hy⟩

namespace Setting

/-- The results solve the equations of the jobs in the first `l` levels. -/
def SolvesBefore (c : Setting) (l : Nat) (E R : String → JobResult) : Prop :=
  ∀ j ∈ c.jobs, Graph.levelOf c.levels j.name < l →
    R j.name = if !c.isDue R j then .skipped else if c.isCut R j then .cancelled else E j.name

variable {c : Setting} {E R R' : String → JobResult} {l : Nat} {j : Job}

theorem Solves.solvesBefore (h : c.Solves E R) (l : Nat) : c.SolvesBefore l E R := fun j hj _ => h j hj

theorem SolvesBefore.mono {l' : Nat} (h : c.SolvesBefore l E R) (hle : l' ≤ l) : c.SolvesBefore l' E R :=
  fun j hj hlt => h j hj (hlt.trans_le hle)

theorem SolvesBefore.eq_of_executes (h : c.SolvesBefore l E R) (hj : j ∈ c.jobs)
    (hlt : Graph.levelOf c.levels j.name < l) (hexecutes : c.executes R j = true) : R j.name = E j.name := by
  rw [executes, Bool.and_eq_true, Bool.not_eq_true'] at hexecutes
  rw [h j hj hlt, hexecutes.1, hexecutes.2]
  rfl

/-- Whether a job is executed depends on the results of the levels before its own only. -/
theorem executes_congr (hc : c.Ascends) (hj : j ∈ c.jobs)
    (h : ∀ d ∈ c.jobs, Graph.levelOf c.levels d.name < Graph.levelOf c.levels j.name → R d.name = R' d.name) :
    c.executes R j = c.executes R' j := by
  unfold executes
  rw [isDue_congr hj fun d hpre => h d hpre.1 (hc d j hpre), isCut_congr h]

variable {mid left : List (List String)} {level : List String} {p : Progress}

/-- The jobs of the first levels. -/
theorem Leveled.mem_named_flatten (hc : c.Leveled) (h : c.levels = mid ++ left) :
    j ∈ Run.named c.jobs mid.flatten ↔ j ∈ c.jobs ∧ Graph.levelOf c.levels j.name < mid.length := by
  rw [Run.mem_named hc.wellFormed.names_nodup, h, Graph.levelOf_append_lt]

/-- The jobs of one level. -/
theorem Leveled.mem_named_level (hc : c.Leveled) (h : c.levels = mid ++ level :: left) :
    j ∈ Run.named c.jobs level ↔ j ∈ c.jobs ∧ Graph.levelOf c.levels j.name = mid.length := by
  have hfirst : j.name ∈ mid.flatten ↔ Graph.levelOf c.levels j.name < mid.length := by
    rw [h, Graph.levelOf_append_lt]
  have hnext : j.name ∈ mid.flatten ∨ j.name ∈ level ↔ Graph.levelOf c.levels j.name < mid.length + 1 := by
    have hlength : (mid ++ [level]).length = mid.length + 1 := List.length_append
    rw [h, List.append_cons, ← hlength, Graph.levelOf_append_lt, List.flatten_append, List.flatten_singleton,
      List.mem_append]
  rw [Run.mem_named hc.wellFormed.names_nodup]
  refine and_congr_right fun _ => ⟨fun hlevel => ?_, fun heq => ?_⟩
  · have hno : j.name ∉ mid.flatten := by
      intro hmid
      have hnd := hc.layered.nodup_flatten
      rw [h, List.flatten_append, List.nodup_append] at hnd
      exact hnd.2.2 _ hmid _ (List.mem_append_left _ hlevel) rfl
    have := hnext.1 (.inr hlevel)
    rw [hfirst] at hno
    omega
  · exact (hnext.2 (by omega)).resolve_left fun hmid => absurd (hfirst.1 hmid) (by omega)

/-- The jobs of the level at hand are executed if the results so far ask for them, and if there are workers. -/
theorem Reaches.mem_levelJobs (hc : c.Leveled) (hp : c.Reaches mid (level :: left) p) (workers : Int) :
    j ∈ Run.levelJobs c.scene workers p (Run.named c.jobs level) ↔
      j ∈ c.jobs ∧ (1 ≤ workers ∧ Graph.levelOf c.levels j.name = mid.length) ∧ c.executes p.value j = true := by
  obtain ⟨hfollows, -⟩ := hc.follows hp.layered
  rw [(courseLevel_eq hc.wellFormed hp.knows (hp.subset hc) hfollows workers fun _ => .ok .success).1]
  split
  · rename_i hw
    exact iff_of_false List.not_mem_nil fun h => absurd h.2.1.1 (by omega)
  · rename_i hw
    rw [mem_levelRuns, levelVerdict_eq_run, hc.mem_named_level hp.levels_eq, and_assoc, and_assoc]
    refine and_congr_right fun hj => ?_
    rw [and_iff_right (by omega : 1 ≤ workers)]
    refine and_congr_right fun hlevel => ?_
    obtain ⟨hdue, hcut⟩ := hp.verdict hc (R := p.value) (fun _ _ => rfl) j
      ((hc.mem_named_level hp.levels_eq).2 ⟨hj, hlevel⟩)
    rw [hcut, executes, Bool.and_eq_true, Bool.not_eq_true']

end Setting

namespace Run

theorem courseJobs_append {s : RunScene} {workers : Int} {E : Outcomes} {jss' : List (List Job)} {p' : Progress} :
    ∀ {jss : List (List Job)} {p : Progress}, jss.foldlM (courseLevel s workers E) p = .ok p' →
      courseJobs s workers E (jss ++ jss') p = courseJobs s workers E jss p ++ courseJobs s workers E jss' p'
  | [], p, hp => by cases hp; rfl
  | js :: jss, p, hp => by
    rw [List.foldlM_cons] at hp
    cases hq : courseLevel s workers E p js with
    | error f => rw [hq] at hp; cases hp
    | ok q =>
      rw [hq] at hp
      rw [List.cons_append, courseJobs, courseJobs, hq, List.append_assoc]
      simp only
      rw [courseJobs_append hp]

variable {c : Setting}

/-- The course of a run, broken off or not, reaches some level: the results before it solve their
equations, and the jobs executed are those that these results ask for, up to that level. -/
theorem course_reaches (hc : c.Leveled) (workers : Int) (E : Outcomes) :
    ∃ l R, c.SolvesBefore l (fun n => ended (E n)) R ∧
      ∀ j, j ∈ courseJobs c.scene workers E (c.levels.map (named c.jobs)) {} ↔ j ∈ c.jobs ∧
        (Graph.levelOf c.levels j.name < l ∨ 1 ≤ workers ∧ Graph.levelOf c.levels j.name = l) ∧
        c.executes R j = true := by
  cases hp : (c.levels.map (named c.jobs)).foldlM (courseLevel c.scene workers E) {} with
  | ok p =>
    obtain ⟨-, -, hsolved, hjobs⟩ := Setting.course_levels hc c.levels [] [] {}
      (by rw [List.append_nil]; exact hc.reaches_start) hp
    have hall : c.levels = c.levels ++ [] := (List.append_nil _).symm
    have hmem := fun j => hc.mem_named_flatten (j := j) hall
    refine ⟨c.levels.length, p.value, fun j hj hlt => hsolved j ((hmem j).2 ⟨hj, hlt⟩), fun j => ?_⟩
    rw [hjobs, List.mem_filter, hmem j, and_assoc]
    refine and_congr_right fun hj => ?_
    have hlt := ((hmem j).1 ((mem_named hc.wellFormed.names_nodup).2 ⟨hj, hc.mem_flatten hj⟩)).2
    rw [and_iff_right hlt, and_iff_right (.inl hlt)]
  | error f =>
    -- the levels up to the one that fails are settled, and in that one the jobs are still decided about
    rw [List.foldlM_map] at hp
    obtain ⟨mid, level, left, q, hlevels, hq, hlevel⟩ := foldlM_eq_error hp
    rw [← List.foldlM_map] at hq
    obtain ⟨hreaches, -, hsolved, hjobs⟩ := Setting.course_levels hc mid (level :: left) [] {}
      (by rw [← hlevels]; exact hc.reaches_start) hq
    rw [List.nil_append] at hreaches
    refine ⟨mid.length, q.value, fun j hj hlt => hsolved j ((hc.mem_named_flatten hlevels).2 ⟨hj, hlt⟩), fun j => ?_⟩
    have hexecuted : courseJobs c.scene workers E (c.levels.map (named c.jobs)) {} =
        (named c.jobs mid.flatten).filter (c.executes q.value) ++ levelJobs c.scene workers q (named c.jobs level) := by
      rw [hlevels, List.map_append, courseJobs_append hq, hjobs, List.map_cons, courseJobs, hlevel, List.append_nil]
    rw [hexecuted, List.mem_append, List.mem_filter, hc.mem_named_flatten hlevels, hreaches.mem_levelJobs hc]
    tauto

/-- Results that a run has decided by before any of its executions: they solve the equations of all
levels before, and ask for the jobs executed up to its level and for no others there. -/
structure Decides (c : Setting) (E : String → JobResult) (executed : List Job) (R : String → JobResult) : Prop where
  solves : ∀ k ∈ executed, c.SolvesBefore (Graph.levelOf c.levels k.name) E R
  executes : ∀ k ∈ executed, ∀ j ∈ c.jobs, Graph.levelOf c.levels j.name ≤ Graph.levelOf c.levels k.name →
    (c.executes R j = true ↔ j ∈ executed)

theorem exists_decides (hc : c.Leveled) (workers : Int) (E : Outcomes) :
    ∃ R, Decides c (fun n => ended (E n)) (courseJobs c.scene workers E (c.levels.map (named c.jobs)) {}) R := by
  obtain ⟨l, R, hR, hmem⟩ := course_reaches hc workers E
  refine ⟨R, fun k hk => hR.mono ?_, fun k hk j hj hle => ?_⟩
  · obtain ⟨-, hlevel, -⟩ := (hmem k).1 hk
    omega
  · obtain ⟨-, hlevel, -⟩ := (hmem k).1 hk
    rw [hmem, and_iff_right hj, and_iff_right]
    omega

theorem calls_decides {jobs : List Job} {g : Graph} {levels : List (List String)} (hg : Graph.ofJobs jobs = .ok g)
    (hl : g.levels = .ok levels) (t : Trigger) (o : RunOptions) (execute : Executor) (h : Host) :
    ∃ R, Decides (settingOf jobs levels t o h) (fun n => ended (outcomes jobs t o execute h n))
      ((calls jobs t o execute h).map (·.1)) R := by
  rw [(run_eq_course hg hl t o execute h (outcomes_eq hg hl execute)).2.1]
  exact exists_decides (leveled hg hl) _ _

end Run

end CiPipeline
