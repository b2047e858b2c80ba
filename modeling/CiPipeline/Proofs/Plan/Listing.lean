import CiPipeline.Proofs.Plan
import CiPipeline.Proofs.Run.Completion

/-
What a plan prints. Of each job it prints one line: in the course of a level first the jobs that do not run,
when they are decided about, and then the others, when their assumed results are settled (`notes_levelIn`), which
is in the order in which they complete. The verdicts and results of a level are those that the final results ask
for (`notes_levels`), so that the whole listing can be read off the results that the plan returns and the order of
completion (`exists_told`).
-/

namespace CiPipeline

/-- The text that an event prints on the standard output. -/
def Event.out? : Event → Option String
  | .out text => some text
  | _ => none

namespace Plan

open CiPipeline.Run

/-- Evaluates the gates of all jobs under some assumptions, where the assumed results of a level are settled in the
order of completion. -/
def planIn (q : Completion) (jobs : List Job) (t : Trigger) (assumed : Assumptions) (platform : Option String)
    (printPlan : Bool) : Act (List (String × JobResult)) := do
  match assumed.bad? with
  | some (job, r) => .fail (.unknownResult r.word job)
  | none => runIn q jobs t (options platform printPlan) (pretend assumed)

/-- A plan settles assumed results in the order in which it began the jobs. -/
theorem planIn_asBegun (jobs : List Job) (t : Trigger) (assumed : Assumptions) (platform : Option String)
    (printPlan : Bool) :
    planIn .asBegun jobs t assumed platform printPlan = plan jobs t assumed platform printPlan := by
  unfold planIn plan
  rw [runIn_asBegun]
  rfl

theorem planIn_eq_runIn {a : Assumptions} (ha : ∀ e ∈ a.entries, e.2 ∈ JobResult.all) (q : Completion) (jobs : List Job)
    (t : Trigger) (platform : Option String) (printPlan : Bool) :
    planIn q jobs t a platform printPlan = runIn q jobs t (options platform printPlan) (pretend a) := by
  unfold planIn
  rw [bad?_eq_none ha]

/-- Whatever the order of completion, a plan returns the same. -/
theorem planIn_eq_plan {a : Assumptions} (ha : ∀ e ∈ a.entries, e.2 ∈ JobResult.all) (q : Completion) (jobs : List Job)
    (t : Trigger) (platform : Option String) (printPlan : Bool) (h : Host) :
    ((planIn q jobs t a platform printPlan).on h).1 = ((plan jobs t a platform printPlan).on h).1 := by
  have hassigned : Assigned (pretend a) (fun n => .ok (a.at n)) jobs := ⟨fun _ _ _ => rfl, fun _ _ => rfl⟩
  rw [planIn_eq_runIn ha, plan_eq_run ha]
  exact runIn_eq_run hassigned q t (options platform printPlan) h

/-! ## What is printed and begun -/

/-- The line of a plan for a job with a verdict and a result. -/
def line (v : Verdict) (r : JobResult) (j : Job) : String :=
  Console.planLine j.name r.word (if v = .run then "assumed" else v.reason j)

/-- What comes of jobs that have the results assumed for them. -/
def assumedCalls (a : Assumptions) (js : List Job) : List Call := js.map fun j => (j, .ok (a.of j))

/-- Jobs in the order in which they complete with the results assumed for them. -/
def completing (q : Completion) (a : Assumptions) (js : List Job) : List Job :=
  (q.order (assumedCalls a js)).map (·.1)

/-- Jobs in the order in which a plan prints them: those that do not run, and then those that do as they complete. -/
def listed (q : Completion) (a : Assumptions) (v : Job → Verdict) (js : List Job) : List Job :=
  js.filter (v · ≠ .run) ++ completing q a (js.filter (v · = .run))

/-- The lines of some jobs as they are printed. -/
def told (v : Job → Verdict) (r : Job → JobResult) (js : List Job) (d : Display) : List Event :=
  js.map fun j => .out (d.shown (line (v j) (r j) j))

/-- What is recorded when jobs are begun: their workers, if there are jobs at all, and each job. -/
def begun (js : List Job) : List Event := if js.isEmpty then [] else .pool 1 :: js.map (.began ·.name)

/-- What a level adds to the journal. -/
def levelEvents (q : Completion) (a : Assumptions) (v : Job → Verdict) (r : Job → JobResult) (js : List Job)
    (d : Display) : List Event :=
  told v r (js.filter (v · ≠ .run)) d ++
    (begun (js.filter (v · = .run)) ++ told v r (completing q a (js.filter (v · = .run))) d)

/-- What some levels add to the journal. -/
def planEvents (q : Completion) (a : Assumptions) (v : Job → Verdict) (r : Job → JobResult) (jss : List (List Job))
    (d : Display) : List Event :=
  jss.flatMap (levelEvents q a v r · d)

/-! ## The order of completion -/

section

variable {q : Completion} {a : Assumptions} {js : List Job}

theorem completing_perm (q : Completion) (a : Assumptions) (js : List Job) : (completing q a js).Perm js := by
  have hperm := (q.perm (assumedCalls a js)).map (·.1)
  have hjobs : (assumedCalls a js).map (·.1) = js := List.map_map.trans (List.map_id js)
  rwa [hjobs] at hperm

theorem completing_asBegun (a : Assumptions) (js : List Job) : completing .asBegun a js = js :=
  List.map_map.trans (List.map_id js)

theorem order_assumedCalls (q : Completion) (a : Assumptions) (js : List Job) :
    q.order (assumedCalls a js) = assumedCalls a (completing q a js) := by
  have hassumed : ∀ c ∈ q.order (assumedCalls a js), (fun j => (j, .ok (a.of j)) : Job → Call) c.1 = c := by
    intro c hc
    obtain ⟨j, -, rfl⟩ := List.mem_map.1 ((q.perm _).subset hc)
    rfl
  have hback : assumedCalls a (completing q a js) = q.order (assumedCalls a js) :=
    List.map_map.trans ((List.map_congr_left hassumed).trans (List.map_id _))
  exact hback.symm

/-- Results that are settled in another order are the same ones. -/
theorem settle_perm {js' : List Job} (hperm : js'.Perm js) (hnd : (js.map (·.name)).Nodup) (f : Job → JobResult)
    (p : Progress) :
    (∀ n, (js'.foldl (fun p j => p.settle j.name (f j)) p).results.get? n =
      (js.foldl (fun p j => p.settle j.name (f j)) p).results.get? n) ∧
    (js'.foldl (fun p j => p.settle j.name (f j)) p).failed =
      (js.foldl (fun p j => p.settle j.name (f j)) p).failed := by
  obtain ⟨hresults, hfailed⟩ := results_foldl_settle Job.name f js p
  obtain ⟨hresults', hfailed'⟩ := results_foldl_settle Job.name f js' p
  obtain ⟨hin, hout⟩ := Dict.get?_update_named Job.name f hnd p.results
  obtain ⟨hin', hout'⟩ := Dict.get?_update_named Job.name f ((hperm.map _).nodup_iff.2 hnd) p.results
  rw [hresults, hresults', hfailed, hfailed']
  refine ⟨fun n => ?_, by rw [hperm.any_eq]⟩
  by_cases hn : n ∈ js.map (·.name)
  · obtain ⟨j, hj, rfl⟩ := List.mem_map.1 hn
    rw [hin j hj, hin' j (hperm.mem_iff.2 hj)]
  · rw [hout n hn, hout' n fun hn' => hn ((hperm.map _).mem_iff.1 hn')]

end

/-! ## What events print -/

theorem told_congr {v v' : Job → Verdict} {r r' : Job → JobResult} {js : List Job}
    (h : ∀ j ∈ js, v j = v' j ∧ r j = r' j) (d : Display) : told v r js d = told v' r' js d :=
  List.map_congr_left fun j hj => by rw [(h j hj).1, (h j hj).2]

section

variable (q : Completion) (a : Assumptions)

theorem levelEvents_congr {v v' : Job → Verdict} {r r' : Job → JobResult} {js : List Job}
    (h : ∀ j ∈ js, v j = v' j ∧ r j = r' j) (d : Display) : levelEvents q a v r js d = levelEvents q a v' r' js d := by
  have hfilter : ∀ x : Verdict → Bool, js.filter (fun j => x (v j)) = js.filter fun j => x (v' j) :=
    fun x => List.filter_congr fun j hj => by rw [(h j hj).1]
  have htold : ∀ l : List Job, l ⊆ js → told v r l d = told v' r' l d :=
    fun l hl => told_congr (fun j hj => h j (hl hj)) d
  have hsub : ∀ x : Job → Bool, js.filter x ⊆ js := fun x _ hj => List.mem_of_mem_filter hj
  have hcompleting : ∀ x : Job → Bool, completing q a (js.filter x) ⊆ js :=
    fun x j hj => hsub x ((completing_perm q a _).subset hj)
  unfold levelEvents
  rw [htold _ (hsub _), htold _ (hcompleting _), hfilter (· ≠ .run), hfilter (· = .run)]

/-- The jobs that run are announced by no line. -/
theorem flatMap_announced (v : Job → Verdict) (d : Display) : ∀ js : List Job,
    ((js.map fun j => (j, v j)).flatMap fun jv : Job × Verdict =>
        if jv.2 = .run then [] else [.out (d.shown (line jv.2 jv.2.result jv.1))]) =
      told v (fun j => (v j).result) (js.filter (v · ≠ .run)) d
  | [] => rfl
  | j :: js => by
    rw [List.map_cons, List.flatMap_cons, flatMap_announced v d js, List.filter_cons]
    by_cases hv : v j = .run
    · rw [if_pos hv, if_neg (by simp [hv])]
      rfl
    · rw [if_neg hv, if_pos (by simp [hv])]
      rfl

theorem filterMap_out_told (v : Job → Verdict) (r : Job → JobResult) (js : List Job) (d : Display) :
    (told v r js d).filterMap Event.out? = js.map fun j => d.shown (line (v j) (r j) j) := by
  rw [told, List.filterMap_map]
  exact congrFun List.filterMap_eq_map js

theorem filterMap_out_begun (js : List Job) : (begun js).filterMap Event.out? = [] := by
  unfold begun
  split
  · rfl
  · exact List.filterMap_map.trans (List.filterMap_none js)

/-- A level prints the jobs that do not run and then the others, and nothing else. -/
theorem filterMap_out_levelEvents (v : Job → Verdict) (r : Job → JobResult) (js : List Job) (d : Display) :
    (levelEvents q a v r js d).filterMap Event.out? =
      (listed q a v js).map fun j => d.shown (line (v j) (r j) j) := by
  rw [levelEvents, List.filterMap_append, List.filterMap_append, filterMap_out_told, filterMap_out_begun,
    filterMap_out_told, List.nil_append, listed, List.map_append]

theorem filterMap_out_planEvents (v : Job → Verdict) (r : Job → JobResult) (jss : List (List Job)) (d : Display) :
    (planEvents q a v r jss d).filterMap Event.out? =
      (jss.flatMap (listed q a v)).map fun j => d.shown (line (v j) (r j) j) := by
  rw [planEvents, List.filterMap_flatMap, List.map_flatMap]
  exact List.flatMap_congr fun js _ => filterMap_out_levelEvents q a v r js d

/-- A plan prints, opens its pool and begins jobs, and does nothing else. -/
theorem of_mem_planEvents {v : Job → Verdict} {r : Job → JobResult} {jss : List (List Job)} {d : Display} {e : Event}
    (he : e ∈ planEvents q a v r jss d) : (∃ text, e = .out text) ∨ e = .pool 1 ∨ ∃ n, e = .began n := by
  obtain ⟨js, -, he⟩ := List.mem_flatMap.1 he
  have htold : ∀ l : List Job, e ∈ told v r l d → ∃ text, e = .out text := fun l he => by
    obtain ⟨j, -, rfl⟩ := List.mem_map.1 he
    exact ⟨_, rfl⟩
  rcases List.mem_append.1 he with he | he
  · exact .inl (htold _ he)
  rcases List.mem_append.1 he with he | he
  · unfold begun at he
    split at he
    · cases he
    · rcases List.mem_cons.1 he with rfl | he
      · exact .inr (.inl rfl)
      · obtain ⟨j, -, rfl⟩ := List.mem_map.1 he
        exact .inr (.inr ⟨j.name, rfl⟩)
  · exact .inl (htold _ he)

theorem listed_perm (v : Job → Verdict) (js : List Job) : (listed q a v js).Perm js := by
  have hsplit := List.filter_append_perm (fun j => decide (v j ≠ .run)) js
  refine ((completing_perm q a _).append_left _).trans ?_
  simpa using hsplit

end

/-! ## The parts of a level -/

section

variable (platform : Option String) (q : Completion) (a : Assumptions)

theorem notes_announce (j : Job) (v : Verdict) : (announce (options platform true) j v).Notes ()
    fun d => if v = .run then [] else [.out (d.shown (line v v.result j))] := by
  cases v with
  | run => exact Act.notes_pure ()
  | _ => exact Act.notes_plain _

theorem notes_begin (j : Job) :
    (begin (options platform true) (pretend a) j).Notes (j, Except.ok (a.of j)) fun _ => [.began j.name] := by
  have hpretend : (pretend a j).attempt.Notes (.ok (a.of j)) fun _ => [] := (Act.notes_pure (a.of j)).attempt
  exact (Act.notes_record (.began j.name)).bind (hpretend.bind (Act.notes_pure (j, Except.ok (a.of j))))

theorem notes_conclude (p : Progress) (c : Job × JobResult) :
    (conclude (options platform true) p (c.1, .ok c.2)).Notes (p.settle c.1.name c.2)
      fun d => [.out (d.shown (line .run c.2 c.1))] :=
  fun _ => rfl

/-- Assumed results that are settled one after another are printed in this order. -/
theorem notes_settling (p : Progress) (js : List Job) :
    ((assumedCalls a js).foldlM (conclude (options platform true)) p).Notes
      (js.foldl (fun p j => p.settle j.name (a.of j)) p) (told (fun _ => .run) a.of js) := by
  have hsettled := Act.notes_foldlM (fun p (j : Job) => notes_conclude platform p (j, a.of j)) js p
  simp only [← List.map_eq_flatMap] at hsettled
  rw [assumedCalls, List.foldlM_map]
  exact hsettled

/-- Jobs that are begun have the results assumed for them. -/
theorem notes_begun (js : List Job) :
    (do
      if js.isEmpty then return []
      openPool 1
      js.mapM (begin (options platform true) (pretend a)) : Act (List Call)).Notes (assumedCalls a js)
        fun _ => begun js := by
  unfold begun
  cases hnone : js.isEmpty with
  | true =>
    rw [List.isEmpty_iff.1 hnone]
    exact Act.notes_pure []
  | false =>
    have hpool : (openPool 1).Notes () fun _ => [.pool 1] := Act.notes_record _
    have hmapped := Act.notes_mapM (notes_begin platform a) js
    simp only [← List.map_eq_flatMap] at hmapped
    simp only [Bool.false_eq_true, if_false]
    exact hpool.bind hmapped

/-- A level whose jobs have been decided about prints the jobs that do not run and begins the others. -/
theorem notes_callLevel {s : RunScene} {p p' : Progress} {js : List Job} {v : Job → Verdict}
    (hscreen : p.screen s js = .ok (p', js.map fun j => (j, v j))) :
    (callLevel s (options platform true) 1 (pretend a) p js).Notes (assumedCalls a (js.filter (v · = .run)))
      fun d => told v (fun j => (v j).result) (js.filter (v · ≠ .run)) d ++ begun (js.filter (v · = .run)) := by
  have hsaid : ((js.map fun j => (j, v j)).forM fun jv => announce (options platform true) jv.1 jv.2).Notes ()
      (told v (fun j => (v j).result) (js.filter (v · ≠ .run))) :=
    (Act.notes_forM (fun jv : Job × Verdict => notes_announce platform jv.1 jv.2) _).congr
      fun d => flatMap_announced v d js
  unfold callLevel
  simp only [hscreen, Act.ofExcept, pure_bind, chosen_map]
  exact hsaid.bind (notes_begun platform a _)

/-- Then the others are printed as they are settled, in the order in which they complete. -/
theorem notes_levelIn {s : RunScene} {p p' : Progress} {js : List Job} {v : Job → Verdict} {r : Job → JobResult}
    (hscreen : p.screen s js = .ok (p', js.map fun j => (j, v j))) (hassumed : ∀ j ∈ js, v j = .run → r j = a.of j)
    (hpassed : ∀ j ∈ js, v j ≠ .run → r j = (v j).result) :
    (levelIn q s (options platform true) 1 (pretend a) p js).Notes
      ((completing q a (js.filter (v · = .run))).foldl (fun p j => p.settle j.name (a.of j)) p')
      (levelEvents q a v r js) := by
  have hprogress : (screened s p js).1 = p' := by rw [screened, hscreen]
  have hsettled := notes_settling platform a (screened s p js).1 (completing q a (js.filter (v · = .run)))
  rw [← order_assumedCalls] at hsettled
  have hlevel := (notes_callLevel platform a hscreen).bind
    (f := fun done => (q.order done).foldlM (conclude (options platform true)) (screened s p js).1) hsettled
  rw [hprogress] at hlevel
  unfold levelIn
  rw [hprogress]
  refine hlevel.congr fun d => ?_
  rw [levelEvents, List.append_assoc]
  refine congrArg₂ (· ++ ·) ?_ ?_
  · refine told_congr (fun j hj => ⟨rfl, ?_⟩) d
    rw [List.mem_filter, decide_eq_true_iff] at hj
    exact (hpassed j hj.1 hj.2).symm
  · refine congrArg (begun _ ++ ·) (told_congr (fun j hj => ?_) d)
    have hj := (completing_perm q a _).subset hj
    rw [List.mem_filter, decide_eq_true_iff] at hj
    exact ⟨hj.2.symm, (hassumed j hj.1 hj.2).symm⟩

end

/-! ## Whole plans -/

section

variable {c : Setting}

/-- The result that a plan has for a job with a verdict: what is assumed of it, if it runs. -/
def Assumptions.under (a : Assumptions) (v : Verdict) (j : Job) : JobResult := if v = .run then a.of j else v.result

/-- What a run reaches is reached also by progress with the same results in another order. -/
theorem Reaches.congr {done left : List (List String)} {p p' : Progress} (hp : c.Reaches done left p)
    (hresults : ∀ n, p'.results.get? n = p.results.get? n) (hfailed : p'.failed = p.failed) :
    c.Reaches done left p' := by
  have hvalue : p'.value = p.value := by
    funext n
    rw [Progress.value, hresults, Progress.value]
  refine ⟨hp.levels_eq, hp.layered, fun n => ?_, ?_⟩
  · rw [hresults]
    exact hp.knows.isSome n
  · rw [hfailed, hvalue]
    exact hp.knows.failed

/-- A level prints its jobs with the results that it gives them. -/
theorem notes_step (hc : c.Leveled) (hgo : c.failFast = false) (platform : Option String) (q : Completion)
    (a : Assumptions) {done left : List (List String)} {level : List String} {p : Progress}
    (hp : c.Reaches done (level :: left) p) :
    ∃ p', c.Reaches (done ++ [level]) left p' ∧ (∀ n ∈ done.flatten, p'.value n = p.value n) ∧
      (∀ j ∈ named c.jobs level, p'.value j.name = a.under (verdictOf c p.value false j) j) ∧
      (levelIn q c.scene (options platform true) 1 (pretend a) p (named c.jobs level)).Notes p'
        (levelEvents q a (verdictOf c p.value false) (fun j => p'.value j.name) (named c.jobs level)) := by
  obtain ⟨hfollows, hnames⟩ := hc.follows hp.layered
  obtain ⟨p₁, hp₁⟩ := courseLevel_of_settles hc.wellFormed hp.knows (hp.subset hc) hfollows le_rfl
    (E := fun n => .ok (a.at n)) fun _ _ => rfl
  obtain ⟨hreaches, hkeep, hnew⟩ := hp.step hc hp₁
  obtain ⟨-, rfl⟩ := courseLevel_eq_ok hc.wellFormed hp.knows (hp.subset hc) hfollows hp₁
  have hverdict : c.levelVerdict p = verdictOf c p.value false := by
    rw [Setting.levelVerdict, hgo, Bool.false_and]
  have hresult : ∀ j ∈ named c.jobs level,
      (c.levelDone (fun n => .ok (a.at n)) p (named c.jobs level)).value j.name =
        a.under (verdictOf c p.value false j) j := fun j hj => by
    rw [hnew j hj, ← hverdict]
    rfl
  have hscreen := screen_eq hc.wellFormed (R := p.value) p.failed hfollows (fun n hn => hp.knows.get?_eq hn)
    (fun n hn => hp.knows.get?_eq_none fun hm => hn (List.mem_toFinset.1 (hp.subset hc hm))) rfl
  rw [hgo, Bool.false_and] at hscreen
  have hnotes := notes_levelIn platform q a hscreen
    (fun j hj hv => (hresult j hj).trans (if_pos hv)) fun j hj hv => (hresult j hj).trans (if_neg hv)
  -- in whatever order the jobs complete, the level is done with the same results
  have hruns : ((c.levelRuns p (named c.jobs level)).map (·.name)).Nodup :=
    (List.filter_sublist.map _).nodup hfollows.nodup
  obtain ⟨hresults, hfailed⟩ := settle_perm (completing_perm q a (c.levelRuns p (named c.jobs level))) hruns a.of
    ((named c.jobs level).foldl (fun p' j => p'.pass j (c.levelVerdict p j)) p)
  have hvalue : ∀ n, ((completing q a (c.levelRuns p (named c.jobs level))).foldl
      (fun p j => p.settle j.name (a.of j))
      ((named c.jobs level).foldl (fun p' j => p'.pass j (c.levelVerdict p j)) p)).value n =
        (c.levelDone (fun n => .ok (a.at n)) p (named c.jobs level)).value n := fun n => by
    rw [Progress.value, hresults]
    rfl
  refine ⟨_, Reaches.congr hreaches hresults hfailed, fun n hn => (hvalue n).trans (hkeep n hn),
    fun j hj => (hvalue j.name).trans (hresult j hj), ?_⟩
  simp only [hvalue]
  rw [Setting.levelRuns, hverdict]
  exact hnotes

/-- Levels one after another print their jobs with the verdicts and results that the final results ask for. -/
theorem notes_levels (hc : c.Leveled) (hgo : c.failFast = false) (platform : Option String) (q : Completion)
    (a : Assumptions) : ∀ (left done : List (List String)) (p : Progress), c.Reaches done left p →
      ∃ p', c.Reaches (done ++ left) [] p' ∧ (∀ n ∈ done.flatten, p'.value n = p.value n) ∧
        (∀ level ∈ left, ∀ j ∈ named c.jobs level, p'.value j.name = a.under (verdictOf c p'.value false j) j) ∧
        ((left.map (named c.jobs)).foldlM (levelIn q c.scene (options platform true) 1 (pretend a)) p).Notes p'
          (planEvents q a (verdictOf c p'.value false) (fun j => p'.value j.name) (left.map (named c.jobs)))
  | [], done, p, hp => ⟨p, by rw [List.append_nil]; exact hp, fun _ _ => rfl, nofun, Act.notes_pure p⟩
  | level :: left, done, p, hp => by
    obtain ⟨hfollows, -⟩ := hc.follows hp.layered
    obtain ⟨p₁, hreaches, hkeep, hresult, hlevel⟩ := notes_step hc hgo platform q a hp
    obtain ⟨p', hend, hkeep', hresults, hnotes⟩ := notes_levels hc hgo platform q a left (done ++ [level]) p₁ hreaches
    have hbefore : ∀ n ∈ done.flatten, p'.value n = p.value n := fun n hn => by
      rw [hkeep' n (by rw [List.flatten_append]; exact List.mem_append_left _ hn), hkeep n hn]
    -- the jobs before those of this level have their final results already, so it has the final verdicts
    have hsame : ∀ j ∈ named c.jobs level,
        verdictOf c p.value false j = verdictOf c p'.value false j ∧ p₁.value j.name = p'.value j.name := fun j hj => by
      have hsees : j.sees c.jobs p.value = j.sees c.jobs p'.value := j.sees_congr (hfollows.mem j hj) fun d hpre =>
        (hbefore d.name (List.mem_toFinset.1 (hfollows.before j hj d hpre))).symm
      refine ⟨by rw [verdictOf, verdictOf, hsees], (hkeep' j.name ?_).symm⟩
      rw [List.flatten_append, List.flatten_singleton]
      exact List.mem_append_right _ (mem_of_mem_named hj).2
    refine ⟨p', by rw [List.append_cons]; exact hend, hbefore, fun l hl j hj => ?_, ?_⟩
    · rcases List.mem_cons.1 hl with rfl | hl
      · rw [← (hsame j hj).1, ← (hsame j hj).2]; exact hresult j hj
      · exact hresults l hl j hj
    · rw [List.map_cons, List.foldlM_cons]
      refine (hlevel.bind hnotes).congr fun d => ?_
      rw [planEvents, planEvents, List.flatMap_cons, levelEvents_congr q a hsame]

end

/-- The jobs of some levels in the order in which a plan prints them. -/
def listing (q : Completion) (a : Assumptions) (v : Job → Verdict) (jobs : List Job) (levels : List (List String)) :
    List Job :=
  (levels.map (named jobs)).flatMap (listed q a v)

/-- A plan of jobs on a host tells its results `R`, where `v` has the verdicts on the jobs, and the jobs of a level
complete in the order `q`. -/
structure Tells (q : Completion) (jobs : List Job) (levels : List (List String)) (t : Trigger) (a : Assumptions)
    (platform : Option String) (h : Host) (R : String → JobResult) (v : Job → Verdict) (events : List Event) :
    Prop where
  /-- It returns the results, and does nothing but add events to the journal. -/
  returns : (planIn q jobs t a platform true).on h =
    (.ok (levels.flatten.map fun n => (n, R n)), Act.noting h events)
  /-- The verdicts are those that the returned results ask for. -/
  decided : ∀ j ∈ jobs, j.decide ⟨levels.flatten.map fun n => (n, R n)⟩ (Groups.ofJobs jobs) t
    (platformOf (options platform true) h) false = .ok (v j)
  /-- A job that runs has the result that is assumed of it. -/
  result : ∀ j ∈ jobs, R j.name = if v j = .run then a.of j else (v j).result
  starts_none : ∀ c, .started c ∉ events
  err_none : ∀ text, .err text ∉ events
  /-- What is printed is a line for each job of the listing. -/
  lines : events.filterMap Event.out? =
    (listing q a v jobs levels).map fun j => h.display.shown (line (v j) (R j.name) j)
  /-- The listing has each job once. -/
  once : (listing q a v jobs levels).Perm jobs
  /-- Its part for a level has what is returned for the level. -/
  level : ∀ level ∈ levels, (named jobs level).map (·.name) = level ∧
    ((listed q a v (named jobs level)).map fun j => (j.name, R j.name)).Perm (level.map fun n => (n, R n))
  pairs : ((listing q a v jobs levels).map fun j => (j.name, R j.name)).Perm (levels.flatten.map fun n => (n, R n))

section

variable {jobs : List Job}

theorem map_pair_named (R : String → JobResult) {ns : List String} (hns : ns ⊆ jobs.map (·.name)) :
    ((named jobs ns).map fun j => (j.name, R j.name)) = ns.map fun n => (n, R n) := by
  have hpair : ((named jobs ns).map (·.name)).map (fun n => (n, R n)) = ns.map fun n => (n, R n) := by
    rw [map_name_named hns]
  rw [← hpair, List.map_map]
  rfl

/-- A listing has the jobs of its levels, each once. -/
theorem listing_perm (q : Completion) (a : Assumptions) (v : Job → Verdict) (jobs : List Job)
    (levels : List (List String)) : (listing q a v jobs levels).Perm (named jobs levels.flatten) := by
  rw [← named_flatten, ← List.flatMap_id]
  exact List.Perm.flatMap_left _ fun js _ => listed_perm q a v js

theorem named_perm (hnd : (jobs.map (·.name)).Nodup) {ns : List String} (hns : ns.Perm (jobs.map (·.name))) :
    (named jobs ns).Perm jobs := by
  have hnamed : ((named jobs ns).map (·.name)).Nodup := by
    rw [map_name_named hns.subset]
    exact hns.nodup_iff.2 hnd
  refine (List.perm_ext_iff_of_nodup hnamed.of_map hnd.of_map).2 fun j => ?_
  rw [mem_named hnd, hns.mem_iff]
  exact ⟨And.left, fun hj => ⟨hj, List.mem_map.2 ⟨j, hj, rfl⟩⟩⟩

end

/-- Whatever is assumed, and in whatever order the jobs of a level complete, a plan tells its results. It starts
nothing, prints no error, and prints each job once with its result: level by level the jobs that do not run, and then
those that have the results assumed for them, as they complete. It returns the same in every such order; if they
complete in the order in which they were begun, that is the order of the level. -/
theorem exists_told {jobs : List Job} {g : Graph} {levels : List (List String)} {a : Assumptions}
    (hg : Graph.ofJobs jobs = .ok g) (hl : g.levels = .ok levels) (ha : ∀ e ∈ a.entries, e.2 ∈ JobResult.all)
    (t : Trigger) (platform : Option String) (h : Host) (q : Completion) :
    (∃ R v events, Tells q jobs levels t a platform h R v events) ∧
      ((planIn q jobs t a platform true).on h).1 = ((plan jobs t a platform true).on h).1 ∧
      planIn .asBegun jobs t a platform true = plan jobs t a platform true ∧
      ∀ v js, listed .asBegun a v js = js.filter (v · ≠ .run) ++ js.filter (v · = .run) := by
  refine ⟨?_, planIn_eq_plan ha q jobs t platform true h, planIn_asBegun jobs t a platform true,
    fun v js => by rw [listed, completing_asBegun]⟩
  have hc : (settingOf jobs levels t (options platform true) h).Leveled := leveled hg hl
  have hnd : (jobs.map (·.name)).Nodup := hc.wellFormed.names_nodup
  have hperm : levels.flatten.Perm (jobs.map (·.name)) := hc.perm
  have hmem : ∀ j ∈ jobs, j.name ∈ levels.flatten := fun _ => hc.mem_flatten
  have hsub : ∀ level ∈ levels, level ⊆ jobs.map (·.name) := fun level hlevel n hn =>
    hperm.subset (List.mem_flatten.2 ⟨level, hlevel, hn⟩)
  obtain ⟨p, hend, -, hresults, hnotes⟩ := notes_levels hc rfl platform q a levels [] {} hc.reaches_start
  have hlevels : ((levels.map (named jobs)).foldlM (levelIn q (sceneOf jobs t (options platform true) h)
      (options platform true) (workers (options platform true) h) (pretend a)) {}).on h = _ := hnotes h
  have hknows : p.Knows levels.flatten.toFinset := hend.knows
  let v := verdictOf (settingOf jobs levels t (options platform true) h) p.value false
  refine ⟨p.value, v, planEvents q a v (fun j => p.value j.name) (levels.map (named jobs)) h.display, ?_⟩
  exact
    { returns := by
        rw [planIn_eq_runIn ha, runIn]
        simp only [hg, hl, Act.ofExcept, pure_bind]
        rw [Act.on_bind_ok (Act.on_get h), Act.on_bind_ok hlevels]
        exact congrArg (fun rs => (Except.ok rs, _)) (inOrder_eq hknows)
      decided := fun j hj => by
        refine j.decide_eq (settingOf jobs levels t (options platform true) h) hc.wellFormed hj
          (fun d hpre => ?_) (fun n hn => ?_) false
        · rw [Dict.get?_mk_map, if_pos (hmem d hpre.1)]
        · rw [Dict.get?_mk_map, if_neg fun hn' => hn (hperm.mem_iff.1 hn')]
      result := fun j hj => by
        obtain ⟨level, hlevel, hname⟩ := List.mem_flatten.1 (hmem j hj)
        exact hresults level hlevel j ((mem_named hnd).2 ⟨hj, hname⟩)
      starts_none := fun c hm => by simpa using of_mem_planEvents q a hm
      err_none := fun text hm => by simpa using of_mem_planEvents q a hm
      lines := filterMap_out_planEvents q a v (fun j => p.value j.name) (levels.map (named jobs)) h.display
      once := (listing_perm q a v jobs levels).trans (named_perm hnd hperm)
      level := fun level hlevel => by
        refine ⟨map_name_named (hsub level hlevel), ?_⟩
        rw [← map_pair_named p.value (hsub level hlevel)]
        exact (listed_perm q a v (named jobs level)).map _
      pairs := by
        rw [← map_pair_named p.value hperm.subset]
        exact (listing_perm q a v jobs levels).map _ }

/-- The check is assumed to fail, and the tests of the group are planned for Linux. -/
theorem exists_told_sample : ∃ R v events,
    Tells .asBegun Sample.jobs Sample.levels Sample.trigger ⟨[("lint", .failure)]⟩ (some "linux") Sample.host R v
      events ∧
      events.filterMap Event.out? = ["  ✓ build: success (assumed)\n", "  ✗ lint: failure (assumed)\n",
        "  ⏭ test-windows: skipped (runs on windows)\n", "  ✓ test-linux: success (assumed)\n",
        "  ✓ publish: success (assumed)\n"] := by
  obtain ⟨⟨R, v, events, htells⟩, -, hplan, -⟩ := exists_told (a := ⟨[("lint", .failure)]⟩) Sample.ofJobs_jobs
    Sample.levels_jobs (by decide) Sample.trigger (some "linux") Sample.host .asBegun
  have hevents : ((plan Sample.jobs Sample.trigger ⟨[("lint", .failure)]⟩ (some "linux") true).on
      Sample.host).2.journal = events := by
    rw [← hplan, htells.returns]
    rfl
  refine ⟨R, v, events, htells, ?_⟩
  rw [← hevents, plan_eq_run (by decide), on_run Sample.ofJobs_jobs Sample.levels_jobs]
  decide +kernel

end Plan

namespace Sample

/-- A job with a colour in its name. -/
def painted : Job := { name := "\x1b[31mred\x1b[0m", steps := [] }

end Sample

namespace Plan

/-- Jobs that complete in another order than they were begun in are printed in that order, and not in that of
their level; and a name is printed without the colours that stand in it. -/
theorem listing_as_completed :
    ((planIn .lastFirst Sample.jobs Sample.trigger {} (some "linux") true).on
      Sample.host).2.journal.filterMap Event.out? =
      ["  ✓ lint: success (assumed)\n", "  ✓ build: success (assumed)\n",
        "  ⏭ test-windows: skipped (runs on windows)\n", "  ✓ test-linux: success (assumed)\n",
        "  ✓ publish: success (assumed)\n"] ∧
    ((plan [Sample.painted] Sample.trigger {} none true).on Sample.host).2.journal.filterMap Event.out? =
      ["  ✓ red: success (assumed)\n"] := by
  rw [planIn_eq_runIn (by decide), plan_eq_run (by decide), Run.runIn, run]
  simp only [Sample.ofJobs_jobs, Sample.levels_jobs, Act.ofExcept, pure_bind]
  constructor
  · decide +kernel
  · decide +kernel

end Plan

end CiPipeline
