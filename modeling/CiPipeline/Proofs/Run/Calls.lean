import CiPipeline.Run
import CiPipeline.Proofs.Act
import Mathlib.Data.List.Nodup

/-
The calls of the executor in a run, and the run as their consequence. An executor is any act on the
host, so what it does with a job may depend on all that was done before; `calls` lists the jobs that
a run executed, each with what came of it there. `run_eq_course`: the results of a run are those of
its course, which is a function of the jobs and of what came of each call and of nothing else.
-/

namespace CiPipeline.Run

/-- A call of the executor: the job, and what came of it. -/
abbrev Call := Job × Except Fault JobResult

/-- What comes of each job, by its name, if it is executed. -/
abbrev Outcomes := String → Except Fault JobResult

/-! ## Outcomes -/

/-- What a run makes of an outcome: a fault is a failure, but an interruption goes on. -/
def settled : Except Fault JobResult → Except Fault JobResult
  | .ok r => .ok r
  | .error f => if f.isOrdinary then .ok .failure else .error f

/-- The progress when an outcome is known. -/
def receive (p : Progress) (name : String) (x : Except Fault JobResult) : Except Fault Progress :=
  (settled x).map (p.settle name)

theorem gives_outcome (name : String) : ∀ x : Except Fault JobResult, (outcome name x).Gives (settled x)
  | .ok r => Act.gives_pure r
  | .error f => by
    simp only [outcome, settled]
    split
    · exact (Act.gives_jobFailed _ _ _).then (Act.gives_pure _)
    · exact Act.gives_fail f

theorem gives_conclude (o : RunOptions) (p : Progress) (c : Call) :
    (conclude o p c).Gives (receive p c.1.name c.2) := by
  have hmap : receive p c.1.name c.2 = (settled c.2 >>= fun r => .ok (p.settle c.1.name r)) := by
    unfold receive; cases settled c.2 <;> rfl
  rw [hmap]
  exact (gives_outcome c.1.name c.2).bind fun r _ =>
    .ite ((Act.gives_plain _).then (Act.gives_pure _)) (Act.gives_pure _)

theorem gives_announce (o : RunOptions) (j : Job) (v : Verdict) : (announce o j v).Gives (.ok ()) := by
  unfold announce
  split
  · exact .ite (Act.gives_plain _) (Act.gives_pure ())
  · exact .ite (Act.gives_plain _) (Act.gives_pure ())

/-! ## The calls of a level -/

/-- The verdicts on a level as far as they can be given, and the progress after them. -/
def screened (s : RunScene) (p : Progress) (js : List Job) : Progress × List Job :=
  match p.screen s js with
  | .ok (p', vs) => (p', chosen vs)
  | .error _ => (p, [])

section

variable (s : RunScene) (o : RunOptions) (workers : Int) (execute : Executor)

/-- Executes the jobs of a level that run, and keeps what comes of each. -/
def callLevel (p : Progress) (js : List Job) : Act (List Call) := do
  let (_, vs) ← Act.ofExcept .missingEntry (p.screen s js)
  vs.forM fun (j, v) => announce o j v
  if (chosen vs).isEmpty then return []
  openPool workers
  (chosen vs).mapM (begin o execute)

/-- A level makes its calls and then settles them. -/
theorem level_eq (p : Progress) (js : List Job) :
    level s o workers execute p js =
      callLevel s o workers execute p js >>= fun done => done.foldlM (conclude o) (screened s p js).1 := by
  unfold level callLevel screened
  cases p.screen s js with
  | error n => rfl
  | ok r =>
    obtain ⟨p', vs⟩ := r
    simp only [Act.ofExcept, pure_bind, bind_assoc, executeAll]
    congr 1
    funext _
    by_cases h : (chosen vs).isEmpty
    · simp only [h, if_true, pure_bind, List.foldlM_nil]
    · simp only [h, Bool.false_eq_true, if_false, bind_assoc]

/-- The calls that a run makes, given the levels that are left, the progress and the host. -/
def callsFrom : List (List Job) → Progress → Host → List Call
  | [], _, _ => []
  | js :: rest, p, h =>
    ((callLevel s o workers execute p js).on h).1.toOption.getD [] ++
      match (level s o workers execute p js).on h with
      | (.ok p', h') => callsFrom rest p' h'
      | (.error _, _) => []

/-! ## The course of a run -/

/-- The course of a level: its progress if it is known what comes of each job. -/
def courseLevel (E : Outcomes) (p : Progress) (js : List Job) : Except Fault Progress :=
  match p.screen s js with
  | .error n => .error (.missingEntry n)
  | .ok (p', vs) =>
    if (chosen vs).isEmpty then .ok p'
    else if workers < 1 then .error .noWorkers
    else (chosen vs).foldlM (fun p j => receive p j.name (E j.name)) p'

/-- The jobs of a level that are executed: those that run, if there are workers. -/
def levelJobs (p : Progress) (js : List Job) : List Job := if workers < 1 then [] else (screened s p js).2

/-- The jobs that are executed in the course of some levels. -/
def courseJobs (E : Outcomes) : List (List Job) → Progress → List Job
  | [], _ => []
  | js :: rest, p =>
    levelJobs s workers p js ++
      match courseLevel s workers E p js with
      | .ok p' => courseJobs E rest p'
      | .error _ => []

theorem on_begin (j : Job) (h : Host) :
    ∃ h₁ h₂, (begin o execute j).on h = (.ok (j, ((execute j).on h₁).1), h₂) := by
  have hbegin : ∃ say : Act Unit, say.Gives (.ok ()) ∧
      begin o execute j = say >>= fun _ => (execute j).attempt >>= fun x => pure (j, x) := by
    unfold begin
    cases o.quiet
    · exact ⟨Console.jobStarted j.name >>= fun _ => Act.record (.began j.name),
        (Act.gives_plain _).then (Act.gives_record _), by simp only [bind_assoc]; rfl⟩
    · exact ⟨Act.record (.began j.name), Act.gives_record _, rfl⟩
  obtain ⟨say, hgives, hbegin⟩ := hbegin
  obtain ⟨h₁, hs⟩ := hgives.on_eq h
  refine ⟨h₁, ((execute j).on h₁).2, ?_⟩
  rw [hbegin, Act.on_bind_ok hs, Act.on_bind_ok (Act.on_attempt (execute j) h₁), Act.on_pure]

theorem on_mapM_begin : ∀ (js : List Job) (h : Host), ∃ done h', (js.mapM (begin o execute)).on h = (.ok done, h') ∧
    done.map (·.1) = js ∧ ∀ c ∈ done, ∃ h₁, ((execute c.1).on h₁).1 = c.2
  | [], h => ⟨[], h, rfl, rfl, fun _ hc => absurd hc List.not_mem_nil⟩
  | j :: js, h => by
    obtain ⟨h₁, h₂, hb⟩ := on_begin o execute j h
    obtain ⟨done, h', hm, hjs, hreal⟩ := on_mapM_begin js h₂
    refine ⟨(j, ((execute j).on h₁).1) :: done, h', ?_, by rw [List.map_cons, hjs], fun c hc => ?_⟩
    · rw [List.mapM_cons, Act.on_bind_ok hb, Act.on_bind_ok hm, Act.on_pure]
    · rcases List.mem_cons.1 hc with rfl | hc
      · exact ⟨h₁, rfl⟩
      · exact hreal c hc

theorem foldlM_receive {E : Outcomes} : ∀ {done : List Call}, (∀ c ∈ done, E c.1.name = c.2) → ∀ p : Progress,
    (done.map (·.1)).foldlM (fun p j => receive p j.name (E j.name)) p =
      done.foldlM (fun p c => receive p c.1.name c.2) p
  | [], _, _ => rfl
  | c :: done, hE, p => by
    rw [List.map_cons, List.foldlM_cons, List.foldlM_cons, hE c (List.mem_cons_self ..)]
    congr 1
    funext p'
    exact foldlM_receive (fun c' hc => hE c' (List.mem_cons_of_mem _ hc)) p'

/-- The calls of a level: either there are none and its course has failed already, or they are those
of the jobs to be executed, and its course is to settle them. -/
theorem on_callLevel (p : Progress) (js : List Job) (h : Host) :
    (∃ f h', (callLevel s o workers execute p js).on h = (.error f, h') ∧ levelJobs s workers p js = [] ∧
      ∀ E, courseLevel s workers E p js = .error f) ∨
    (∃ done h', (callLevel s o workers execute p js).on h = (.ok done, h') ∧
      done.map (·.1) = levelJobs s workers p js ∧ (∀ c ∈ done, ∃ h₁, ((execute c.1).on h₁).1 = c.2) ∧
      ∀ E : Outcomes, (∀ c ∈ done, E c.1.name = c.2) → courseLevel s workers E p js =
        done.foldlM (fun p c => receive p c.1.name c.2) (screened s p js).1) := by
  unfold callLevel levelJobs courseLevel screened
  -- there are no calls if a verdict cannot be given, if no job runs, or if there are no workers
  cases hs : p.screen s js with
  | error n => exact .inl ⟨.missingEntry n, h, rfl, by simp, fun _ => rfl⟩
  | ok r =>
    obtain ⟨p', vs⟩ := r
    obtain ⟨h₁, hsay⟩ := (Act.gives_forM (fun jv : Job × Verdict => gives_announce o jv.1 jv.2) vs).on_eq h
    simp only [Act.ofExcept, pure_bind]
    rw [Act.on_bind_ok hsay]
    by_cases hnone : (chosen vs).isEmpty
    · refine .inr ⟨[], h₁, ?_, ?_, fun _ hc => absurd hc List.not_mem_nil, fun _ _ => ?_⟩
      · simp only [hnone, if_true, Act.on_pure]
      · rw [List.isEmpty_iff.1 hnone]; simp
      · simp only [hnone, if_true]; rfl
    · simp only [hnone, Bool.false_eq_true, if_false]
      by_cases hw : workers < 1
      · refine .inl ⟨.noWorkers, h₁, ?_, if_pos hw, fun _ => if_pos hw⟩
        unfold openPool
        simp only [if_pos hw]
        rfl
      · obtain ⟨h₂, hpool⟩ : ∃ h₂, (openPool workers).on h₁ = (.ok (), h₂) := by
          unfold openPool
          simp only [if_neg hw]
          exact ⟨_, rfl⟩
        obtain ⟨done, h₃, hdone, hjobs, hreal⟩ := on_mapM_begin o execute (chosen vs) h₂
        rw [Act.on_bind_ok hpool, hdone]
        refine .inr ⟨done, h₃, rfl, by rw [hjobs, if_neg hw], hreal, fun E hE => ?_⟩
        rw [if_neg hw, ← hjobs, foldlM_receive hE]

/-- A level whose calls come to known outcomes ends as its course does. -/
theorem on_level (p : Progress) (js : List Job) (h : Host) (E : Outcomes)
    (hE : ∀ c ∈ ((callLevel s o workers execute p js).on h).1.toOption.getD [], E c.1.name = c.2) :
    ((level s o workers execute p js).on h).1 = courseLevel s workers E p js ∧
      (((callLevel s o workers execute p js).on h).1.toOption.getD []).map (·.1) = levelJobs s workers p js ∧
      ∀ c ∈ ((callLevel s o workers execute p js).on h).1.toOption.getD [], ∃ h₁, ((execute c.1).on h₁).1 = c.2 := by
  rw [level_eq]
  rcases on_callLevel s o workers execute p js h with
    ⟨f, h', hcall, hjobs, hcourse⟩ | ⟨done, h', hcall, hjobs, hreal, hcourse⟩
  · rw [Act.on_bind_error hcall, hcall]
    exact ⟨(hcourse E).symm, by rw [hjobs]; rfl, fun _ hc => absurd hc List.not_mem_nil⟩
  · rw [hcall] at hE
    rw [Act.on_bind_ok hcall, hcall, hcourse E hE]
    exact ⟨Act.gives_foldlM done _ (fun p' c _ => gives_conclude o p' c) h', hjobs, hreal⟩

/-- The calls of some levels, and how the levels end, by the course of the levels. -/
theorem on_levels (E : Outcomes) : ∀ (jss : List (List Job)) (p : Progress) (h : Host),
    (∀ c ∈ callsFrom s o workers execute jss p h, E c.1.name = c.2) →
    ((jss.foldlM (level s o workers execute) p).on h).1 = jss.foldlM (courseLevel s workers E) p ∧
      (callsFrom s o workers execute jss p h).map (·.1) = courseJobs s workers E jss p ∧
      ∀ c ∈ callsFrom s o workers execute jss p h, ∃ h₁, ((execute c.1).on h₁).1 = c.2
  | [], p, h, _ => ⟨rfl, rfl, fun _ hc => absurd hc List.not_mem_nil⟩
  | js :: rest, p, h, hE => by
    rw [callsFrom] at hE ⊢
    obtain ⟨hcourse, hjobs, hreal⟩ := on_level s o workers execute p js h E fun c hc =>
      hE c (List.mem_append_left _ hc)
    rw [List.foldlM_cons, List.foldlM_cons, courseJobs, List.map_append, hjobs, ← hcourse]
    -- a level that fails ends the run, but its calls have been made
    rcases hl : (level s o workers execute p js).on h with ⟨f | p', h'⟩
    · rw [Act.on_bind_error hl]
      refine ⟨rfl, rfl, fun c hc => hreal c ?_⟩
      simpa [hl] using hc
    · rw [Act.on_bind_ok hl]
      obtain ⟨hrest, hrjobs, hrreal⟩ := on_levels E rest p' h' fun c hc =>
        hE c (List.mem_append_right _ (by rw [hl]; exact hc))
      refine ⟨hrest, by simp only [hrjobs], fun c hc => ?_⟩
      rcases List.mem_append.1 hc with hc | hc
      · exact hreal c hc
      · exact hrreal c hc

end

/-! ## Each job is called once at most -/

theorem map_fst_screen (s : RunScene) :
    ∀ {js : List Job} {p p' : Progress} {vs : List (Job × Verdict)}, p.screen s js = .ok (p', vs) → vs.map (·.1) = js
  | [], p, p', vs, h => by cases h; rfl
  | j :: js, p, p', vs, h => by
    rw [Progress.screen] at h
    cases hv : j.decide p.results s.groups s.trigger s.platform (s.failFast && p.failed) with
    | error e => rw [hv] at h; cases h
    | ok v =>
      cases hr : (p.pass j v).screen s js with
      | error e => simp only [hv, hr, bind, Except.bind] at h; cases h
      | ok r =>
        simp only [hv, hr, bind, Except.bind, pure, Except.pure] at h
        cases h
        rw [List.map_cons, map_fst_screen s hr]

theorem chosen_sublist (vs : List (Job × Verdict)) : (chosen vs).Sublist (vs.map (·.1)) := List.filter_sublist.map _

theorem levelJobs_sublist (s : RunScene) (workers : Int) (p : Progress) (js : List Job) :
    (levelJobs s workers p js).Sublist js := by
  unfold levelJobs screened
  split
  · exact List.nil_sublist js
  · cases hs : p.screen s js with
    | error e => exact List.nil_sublist js
    | ok r => exact (chosen_sublist r.2).trans (map_fst_screen s hs ▸ List.Sublist.refl _)

theorem callsFrom_sublist (s : RunScene) (o : RunOptions) (workers : Int) (execute : Executor) :
    ∀ (jss : List (List Job)) (p : Progress) (h : Host),
      ((callsFrom s o workers execute jss p h).map (·.1)).Sublist jss.flatten
  | [], _, _ => List.nil_sublist _
  | js :: rest, p, h => by
    rw [callsFrom, List.map_append, List.flatten_cons]
    refine List.Sublist.append ?_ ?_
    · rcases on_callLevel s o workers execute p js h with ⟨f, h', hcall, -⟩ | ⟨done, h', hcall, hjobs, -⟩
      · rw [hcall]; exact List.nil_sublist js
      · rw [hcall]
        exact (show done.map (·.1) = levelJobs s workers p js from hjobs) ▸ levelJobs_sublist s workers p js
    · split
      · exact callsFrom_sublist s o workers execute rest _ _
      · exact List.nil_sublist _

/-- What came of each job in some calls; of a job that was not called, nothing but good. -/
def outcomesOf (calls : List Call) : Outcomes := fun n =>
  ((calls.find? (·.1.name = n)).map (·.2)).getD (.ok .success)

theorem outcomesOf_eq {calls : List Call} (h : (calls.map (·.1.name)).Nodup) :
    ∀ c ∈ calls, outcomesOf calls c.1.name = c.2 := by
  intro c hc
  have hfind : calls.find? (·.1.name = c.1.name) = some c := by
    cases hf : calls.find? (·.1.name = c.1.name) with
    | none => exact absurd (List.find?_eq_none.1 hf c hc) (by simp)
    | some c' =>
      have hname : c'.1.name = c.1.name := by simpa using List.find?_some hf
      rw [List.inj_on_of_nodup_map h (List.mem_of_find?_eq_some hf) hc hname]
  rw [outcomesOf, hfind]; rfl

/-! ## Whole runs -/

/-- The platform that a run is for. -/
def platformOf (o : RunOptions) (h : Host) : String := (o.platform.filter (· ≠ "")).getD h.platformName

/-- What stays the same during a run of jobs on a host. -/
def sceneOf (jobs : List Job) (t : Trigger) (o : RunOptions) (h : Host) : RunScene :=
  ⟨Groups.ofJobs jobs, t, platformOf o h, o.failFast⟩

/-- The calls that a run makes on a host. -/
def calls (jobs : List Job) (t : Trigger) (o : RunOptions) (execute : Executor) (h : Host) : List Call :=
  match Graph.ofJobs jobs with
  | .error _ => []
  | .ok g =>
    match g.levels with
    | .error _ => []
    | .ok levels => callsFrom (sceneOf jobs t o h) o (workers o h) execute (levels.map (named jobs)) {} h

/-- The course of a run of levels, and the results in their order. -/
def course (jobs : List Job) (levels : List (List String)) (t : Trigger) (o : RunOptions) (E : Outcomes) (h : Host) :
    Except Fault (List (String × JobResult)) :=
  ((levels.map (named jobs)).foldlM (courseLevel (sceneOf jobs t o h) (workers o h) E) {}).map fun p =>
    inOrder levels p.results

section

variable {jobs : List Job} {g : Graph} {levels : List (List String)}

theorem calls_eq (hg : Graph.ofJobs jobs = .ok g) (hl : g.levels = .ok levels) (t : Trigger) (o : RunOptions)
    (execute : Executor) (h : Host) :
    calls jobs t o execute h =
      callsFrom (sceneOf jobs t o h) o (workers o h) execute (levels.map (named jobs)) {} h := by
  unfold calls; simp only [hg, hl]

theorem on_run (hg : Graph.ofJobs jobs = .ok g) (hl : g.levels = .ok levels) (t : Trigger) (o : RunOptions)
    (execute : Executor) (h : Host) :
    (run jobs t o execute).on h =
      match ((levels.map (named jobs)).foldlM (level (sceneOf jobs t o h) o (workers o h) execute) {}).on h with
      | (.ok p, h') => (.ok (inOrder levels p.results), h')
      | (.error e, h') => (.error e, h') := by
  unfold run
  simp only [hg, hl, Act.ofExcept, pure_bind]
  rw [Act.on_bind_ok (Act.on_get h), Act.on_bind]
  unfold sceneOf platformOf
  split
  · rename_i hon; rw [hon]; rfl
  · rename_i hon; rw [hon]

/-- A run of jobs that have no levels is refused before anything is done. -/
theorem run_refused {e : GraphError} (he : (Graph.ofJobs jobs >>= Graph.levels) = .error e) (t : Trigger)
    (o : RunOptions) (execute : Executor) (h : Host) : (run jobs t o execute).on h = (.error (.graph e), h) := by
  unfold run
  cases hg : Graph.ofJobs jobs with
  | error e' =>
    rw [hg] at he
    cases he
    exact Act.on_bind_error (Act.on_fail _ h)
  | ok g =>
    rw [hg] at he
    have hl : g.levels = .error e := he
    simp only [hl, Act.ofExcept, pure_bind]
    exact Act.on_bind_error (Act.on_fail _ h)

/-- The results of a run are those of its course, given what came of its calls; and its calls are
those of the jobs executed in its course. -/
theorem run_eq_course (hg : Graph.ofJobs jobs = .ok g) (hl : g.levels = .ok levels) (t : Trigger) (o : RunOptions)
    (execute : Executor) (h : Host) {E : Outcomes} (hE : ∀ c ∈ calls jobs t o execute h, E c.1.name = c.2) :
    ((run jobs t o execute).on h).1 = course jobs levels t o E h ∧
      (calls jobs t o execute h).map (·.1) =
        courseJobs (sceneOf jobs t o h) (workers o h) E (levels.map (named jobs)) {} ∧
      ∀ c ∈ calls jobs t o execute h, ∃ h₁, ((execute c.1).on h₁).1 = c.2 := by
  rw [calls_eq hg hl] at hE ⊢
  obtain ⟨hcourse, hjobs, hreal⟩ := on_levels _ o _ execute E (levels.map (named jobs)) {} h hE
  refine ⟨?_, hjobs, hreal⟩
  rw [on_run hg hl, course, ← hcourse]
  rcases ((levels.map (named jobs)).foldlM (level (sceneOf jobs t o h) o (workers o h) execute) {}).on h with
    ⟨_ | p, h'⟩ <;> rfl

end

end CiPipeline.Run
