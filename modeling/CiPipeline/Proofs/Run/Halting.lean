import CiPipeline.Proofs.Run.Solution

/-
Runs that fail fast, level by level. As long as nothing has failed, a run goes on alike whether or not
it is to fail fast; when something has failed, one that is to fail fast executes nothing more, and ends
well (`course_failing`). So its executions are the first ones of those of the other run, both when
the outcomes are given (`prefix_courseJobs`) and on a host (`prefix_callsFrom`).
-/

namespace CiPipeline

@[simp] theorem Progress.failed_pass (p : Progress) (j : Job) (v : Verdict) : (p.pass j v).failed = p.failed := by
  cases v <;> rfl

theorem Job.decide_halted {j : Job} {results : Dict JobResult} {groups : Groups} {t : Trigger} {platform : String}
    {v : Verdict} (h : j.decide results groups t platform true = .ok v) : v ≠ .run := by
  unfold Job.decide at h
  cases hview : j.view results groups with
  | error n => rw [hview] at h; cases h
  | ok needs =>
    rw [hview] at h
    cases h
    dsimp only
    cases j.gateOrDefault.isOpen needs t <;> cases j.suits platform <;> simp

namespace Progress

variable {s : RunScene}

/-- As long as nothing has failed, it makes no difference to the verdicts whether a run is to fail fast. -/
theorem screen_of_not_failed (b : Bool) : ∀ {js : List Job} {p : Progress}, p.failed = false →
    p.screen { s with failFast := b } js = p.screen s js
  | [], _, _ => rfl
  | j :: js, p, hp => by
    have hrest : ∀ v, (p.pass j v).screen { s with failFast := b } js = (p.pass j v).screen s js :=
      fun v => screen_of_not_failed b (by rw [failed_pass]; exact hp)
    simp only [screen, hp, Bool.and_false, hrest]

/-- When something has failed, no job of a run that is to fail fast runs. -/
theorem screen_of_failed (hs : s.failFast = true) : ∀ {js : List Job} {p p' : Progress} {vs : List (Job × Verdict)},
    p.failed = true → p.screen s js = .ok (p', vs) → p'.failed = true ∧ chosen vs = []
  | [], p, p', vs, hp, h => by
    cases h
    exact ⟨hp, rfl⟩
  | j :: js, p, p', vs, hp, h => by
    rw [screen, hs, hp, Bool.and_self] at h
    cases hv : j.decide p.results s.groups s.trigger s.platform true with
    | error n => rw [hv] at h; cases h
    | ok v =>
      cases hr : (p.pass j v).screen s js with
      | error n => simp only [hv, hr, bind, Except.bind] at h; cases h
      | ok r =>
        simp only [hv, hr, bind, Except.bind, pure, Except.pure] at h
        cases h
        obtain ⟨hfailed, hnone⟩ := screen_of_failed hs (by rw [failed_pass]; exact hp) hr
        refine ⟨hfailed, ?_⟩
        have hno : (v == .run) = false := beq_eq_false_iff_ne.2 (Job.decide_halted hv)
        rw [chosen, List.filter_cons, hno]
        exact hnone

end Progress

namespace Run

variable {s : RunScene} {workers workers' : Int} {E : Outcomes}

/-! ## With given outcomes -/

theorem levelJobs_of_failed (hs : s.failFast = true) {p : Progress} (hp : p.failed = true) (js : List Job) :
    levelJobs s workers p js = [] := by
  unfold levelJobs screened
  cases hscreen : p.screen s js with
  | error n => simp
  | ok r => simp [(Progress.screen_of_failed hs hp hscreen).2]

theorem courseLevel_of_failed (hs : s.failFast = true) {p p' : Progress} (hp : p.failed = true) {js : List Job}
    (h : courseLevel s workers E p js = .ok p') : p'.failed = true := by
  unfold courseLevel at h
  cases hscreen : p.screen s js with
  | error n => rw [hscreen] at h; cases h
  | ok r =>
    obtain ⟨hfailed, hnone⟩ := Progress.screen_of_failed hs hp hscreen
    simp only [hscreen, hnone, List.isEmpty_nil, if_true] at h
    cases h
    exact hfailed

/-- When something has failed, nothing more is executed in a course that is to fail fast. -/
theorem courseJobs_of_failed (hs : s.failFast = true) : ∀ {p : Progress}, p.failed = true → ∀ jss : List (List Job),
    courseJobs s workers E jss p = []
  | _, _, [] => rfl
  | p, hp, js :: jss => by
    rw [courseJobs, levelJobs_of_failed hs hp, List.nil_append]
    cases h : courseLevel s workers E p js with
    | error f => rfl
    | ok p' => exact courseJobs_of_failed hs (courseLevel_of_failed hs hp h) jss

theorem courseLevel_of_not_failed (s : RunScene) (hw : workers' < 1 ↔ workers < 1) (E : Outcomes) (b : Bool)
    {p : Progress} (hp : p.failed = false) (js : List Job) :
    levelJobs { s with failFast := b } workers' p js = levelJobs s workers p js ∧
      courseLevel { s with failFast := b } workers' E p js = courseLevel s workers E p js := by
  constructor
  · unfold levelJobs screened
    simp only [Progress.screen_of_not_failed b hp, hw]
  · unfold courseLevel
    simp only [Progress.screen_of_not_failed b hp, hw]

/-- The jobs executed in a course that is to fail fast are the first ones of those executed otherwise. -/
theorem prefix_courseJobs (hw : workers' < 1 ↔ workers < 1) : ∀ (jss : List (List Job)) (p : Progress),
    courseJobs { s with failFast := true } workers' E jss p <+: courseJobs s workers E jss p
  | [], _ => List.prefix_rfl
  | js :: jss, p => by
    cases hp : p.failed with
    | true =>
      rw [courseJobs_of_failed rfl hp]
      exact List.nil_prefix
    | false =>
      obtain ⟨hjobs, hcourse⟩ := courseLevel_of_not_failed s hw E true hp js
      rw [courseJobs, courseJobs, hjobs, hcourse]
      refine (List.prefix_append_right_inj _).2 ?_
      cases courseLevel s workers E p js with
      | error f => exact List.prefix_rfl
      | ok p' => exact prefix_courseJobs hw jss p'

/-! ## On a host -/

section

variable (s : RunScene) (o : RunOptions) (workers : Int) (execute : Executor)

theorem callsFrom_of_failed (hs : s.failFast = true) : ∀ (jss : List (List Job)) (p : Progress) (h : Host),
    p.failed = true → callsFrom s o workers execute jss p h = []
  | [], _, _, _ => rfl
  | js :: jss, p, h, hp => by
    have hnone : ((callLevel s o workers execute p js).on h).1.toOption.getD [] = [] := by
      rcases on_callLevel s o workers execute p js h with ⟨f, h', hcall, -⟩ | ⟨done, h', hcall, hjobs, -⟩
      · rw [hcall]; rfl
      · rw [levelJobs_of_failed hs hp, List.map_eq_nil_iff] at hjobs
        rw [hcall, hjobs]
        rfl
    obtain ⟨hcourse, -⟩ := on_level s o workers execute p js h (fun _ => .ok .success) fun c hc => by
      rw [hnone] at hc
      cases hc
    rw [callsFrom, hnone, List.nil_append]
    rcases hl : (level s o workers execute p js).on h with ⟨f | p', h'⟩
    · rfl
    · rw [hl] at hcourse
      exact callsFrom_of_failed hs jss p' h' (courseLevel_of_failed hs hp hcourse.symm)

theorem level_of_not_failed (b : Bool) {p : Progress} (hp : p.failed = false) (js : List Job) :
    callLevel { s with failFast := b } { o with failFast := b } workers execute p js =
        callLevel s o workers execute p js ∧
      level { s with failFast := b } { o with failFast := b } workers execute p js = level s o workers execute p js := by
  unfold callLevel level
  simp only [Progress.screen_of_not_failed b hp]
  exact ⟨rfl, rfl⟩

/-- The calls of a run that is to fail fast are the first ones of those made otherwise on the same host. -/
theorem prefix_callsFrom : ∀ (jss : List (List Job)) (p : Progress) (h : Host),
    callsFrom { s with failFast := true } { o with failFast := true } workers execute jss p h <+:
      callsFrom s o workers execute jss p h
  | [], _, _ => List.prefix_rfl
  | js :: jss, p, h => by
    cases hp : p.failed with
    | true =>
      rw [callsFrom_of_failed _ _ _ _ rfl _ _ _ hp]
      exact List.nil_prefix
    | false =>
      obtain ⟨hcalls, hlevel⟩ := level_of_not_failed s o workers execute true hp js
      rw [callsFrom, callsFrom, hcalls, hlevel]
      refine (List.prefix_append_right_inj _).2 ?_
      rcases (level s o workers execute p js).on h with ⟨f | p', h'⟩
      · exact List.prefix_rfl
      · exact prefix_callsFrom jss p' h'

end

end Run

/-! ## How a run ends that is to fail fast -/

namespace Setting

/-- The same setting for a run that is to fail fast, or not. -/
def failing (c : Setting) (fast : Bool) : Setting := { c with failFast := fast }

variable {c : Setting} {workers workers' : Int} {E : Run.Outcomes}

/-- When something has failed, a run that is to fail fast ends well. -/
theorem course_of_failed (hc : c.Leveled) (hff : c.failFast = true) :
    ∀ (left done : List (List String)) (p : Progress), c.Reaches done left p → p.failed = true →
      ∃ q, (left.map (Run.named c.jobs)).foldlM (Run.courseLevel c.scene workers E) p = .ok q
  | [], _, p, _, _ => ⟨p, rfl⟩
  | level :: left, done, p, hp, hfailed => by
    -- without jobs to execute it does not matter what their outcomes would be, nor whether there are workers
    have hnone : c.levelRuns p (Run.named c.jobs level) = [] := by
      refine List.filter_eq_nil_iff.2 fun j _ => ?_
      rw [decide_eq_true_iff, levelVerdict_eq_run, hff, hfailed]
      exact fun h => nomatch h.2
    have hlevel := (courseLevel_eq hc.wellFormed hp.knows (hp.subset hc) (hc.follows hp.layered).1 workers E).2
    rw [hnone, if_neg fun h => h.2 rfl] at hlevel
    obtain ⟨q, hq⟩ := course_of_failed hc hff left (done ++ [level]) _ (hp.step hc hlevel).1
      (Run.courseLevel_of_failed hff hfailed hlevel)
    exact ⟨q, by rw [List.map_cons, List.foldlM_cons, hlevel]; exact hq⟩

/-- A run that ends well does so too if it is to fail fast. -/
theorem course_failing (hc : c.Leveled) (hw : workers' < 1 ↔ workers < 1) :
    ∀ (left done : List (List String)) (p q : Progress), c.Reaches done left p →
      (left.map (Run.named c.jobs)).foldlM (Run.courseLevel c.scene workers E) p = .ok q →
      ∃ q', (left.map (Run.named c.jobs)).foldlM (Run.courseLevel (c.failing true).scene workers' E) p = .ok q'
  | [], _, p, _, _, _ => ⟨p, rfl⟩
  | level :: left, done, p, q, hp, h => by
    cases hfailed : p.failed with
    | true =>
      exact course_of_failed (c := c.failing true) ⟨hc.wellFormed, hc.layered, hc.perm⟩ rfl (level :: left) done p
        ⟨hp.levels_eq, hp.layered, hp.knows⟩ hfailed
    | false =>
      rw [List.map_cons, List.foldlM_cons] at h ⊢
      have hlevel : Run.courseLevel (c.failing true).scene workers' E p (Run.named c.jobs level) =
          Run.courseLevel c.scene workers E p (Run.named c.jobs level) :=
        (Run.courseLevel_of_not_failed c.scene hw E true hfailed _).2
      rw [hlevel]
      cases hr : Run.courseLevel c.scene workers E p (Run.named c.jobs level) with
      | error f => rw [hr] at h; cases h
      | ok r =>
        rw [hr] at h
        exact course_failing hc hw left (done ++ [level]) r q (hp.step hc hr).1 h

end Setting

end CiPipeline
