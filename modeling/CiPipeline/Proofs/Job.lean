import CiPipeline.Proofs.Step.Course

/-
The steps of a job one after another. `steps_in_sequence`: a job whose required programs are not all there
ends with an error that lists the missing ones, and leaves the host as it was. Otherwise it does, for every
split of its steps, what the job with the first steps does and then, if that was completed, what the job with
the other steps does on the host that was left; so it ends with the first step that fails, and nothing comes
after that.
-/

namespace CiPipeline

theorem Host.finds_of_frame {h k : Host} (hframe : k.frame = h.frame) (program : String) :
    k.finds program = h.finds program := by
  have hfinds : k.frame.finds program = h.frame.finds program := by rw [hframe]
  exact hfinds

namespace Job

variable (j : Job) (root : Path) {h k : Host}

/-! ## What a job requires -/

/-- The programs that a job requires and that are not on the search path, in order. -/
def missing (j : Job) (h : Host) : List String := j.requires.filter fun p => !h.finds p

/-- The error about them. -/
def missingError (names : List String) : PipelineError :=
  .tools ("Required tools not found: " ++ Text.join " " names) names
    (some (Text.join "; " (names.map fun p => Toolchain.hintFor p p)))

theorem missing_of_frame (hframe : k.frame = h.frame) : j.missing k = j.missing h := by
  unfold missing
  simp only [Host.finds_of_frame hframe]

theorem on_execute_of_missing (hmissing : j.missing h ≠ []) :
    (j.execute root).on h = (.error (.pipeline (missingError (j.missing h))), h) := by
  have hrequires : j.requires.isEmpty = false := by
    cases hr : j.requires with
    | nil => exact absurd (by rw [missing, hr]; rfl) hmissing
    | cons p ps => rfl
  have hdemand : (Toolchain.demand j.requires).on h = (.error (.pipeline (missingError (j.missing h))), h) := by
    rw [Toolchain.demand, Act.on_bind_ok (Act.on_get h)]
    exact congrArg (Act.on · h) (if_pos hmissing)
  unfold execute
  rw [hrequires]
  exact Act.on_bind_error hdemand

theorem on_execute_of_found (hfound : j.missing h = []) :
    (j.execute root).on h = (j.steps.forM (j.step root)).on h := by
  unfold execute
  cases j.requires.isEmpty with
  | true => rfl
  | false =>
    have hdemand : (Toolchain.demand j.requires).on h = (.ok (), h) := by
      rw [Toolchain.demand, Act.on_bind_ok (Act.on_get h)]
      exact congrArg (Act.on · h) (if_neg (fun hno => hno hfound))
    exact Act.on_bind_ok hdemand

/-! ## Some of the steps -/

/-- The job with other steps. -/
def doing (j : Job) (steps : List Step) : Job := { j with steps := steps }

/-- The host when a step has been announced. -/
def announced (j : Job) (s : Step) (h : Host) : Host :=
  Act.noting h [.out (h.display.shown ("[" ++ j.name ++ "] STEP: " ++ s.name))]

theorem on_step (s : Step) (h : Host) : (j.step root s).on h = (s.execute j root).on (j.announced s h) :=
  Act.on_bind_ok (Act.on_plain ("[" ++ j.name ++ "] STEP: " ++ s.name) h)

theorem frame_step (s : Step) (h : Host) : ((j.step root s).on h).2.frame = h.frame := by
  rw [on_step, Step.frame_execute]
  rfl

/-- Which steps a job has makes no difference to any of them. -/
theorem on_execute_doing (hfound : j.missing h = []) (steps : List Step) :
    ((j.doing steps).execute root).on h = (steps.forM (j.step root)).on h :=
  on_execute_of_found (j.doing steps) root hfound

theorem missing_after {steps : List Step} (hfound : j.missing h = [])
    (hon : (steps.forM (j.step root)).on h = (.ok (), k)) : j.missing k = [] := by
  have hframe := Host.frame_forM (frame_step j root) steps h
  rw [hon] at hframe
  rw [missing_of_frame j hframe, hfound]

/-- A job that begins on a host runs its steps strictly in sequence. -/
structure Sequential (j : Job) (root : Path) (h : Host) : Prop where
  /-- Without steps nothing is done. -/
  idle : ((j.doing []).execute root).on h = (.ok (), h)
  /-- A single step is announced and run. -/
  single : ∀ s, ((j.doing [s]).execute root).on h = (s.execute j root).on (j.announced s h)
  /-- The job is the first steps and then, if they are completed, the others. -/
  composed : ∀ xs ys, j.steps = xs ++ ys → (j.execute root).on h =
    match ((j.doing xs).execute root).on h with
    | (.ok (), k) => ((j.doing ys).execute root).on k
    | (.error f, k) => (.error f, k)
  /-- It ends with a fault as the first step does that fails, and leaves the host as that step does. -/
  stops : ∀ f k, (j.execute root).on h = (.error f, k) ↔ ∃ xs s ys k₀, j.steps = xs ++ s :: ys ∧
    ((j.doing xs).execute root).on h = (.ok (), k₀) ∧ (s.execute j root).on (j.announced s k₀) = (.error f, k)
  /-- It is completed exactly if every step is that begins. -/
  returns : (∃ k, (j.execute root).on h = (.ok (), k)) ↔ ∀ xs s ys k₀, j.steps = xs ++ s :: ys →
    ((j.doing xs).execute root).on h = (.ok (), k₀) → ∃ k, (s.execute j root).on (j.announced s k₀) = (.ok (), k)

theorem on_execute_single (hfound : j.missing h = []) (s : Step) :
    ((j.doing [s]).execute root).on h = (s.execute j root).on (j.announced s h) := by
  have hrun := Act.on_then (j.step root s) (pure ()) h
  rw [on_step] at hrun
  refine (on_execute_doing j root hfound [s]).trans (hrun.trans ?_)
  rcases (s.execute j root).on (j.announced s h) with ⟨f | ⟨⟩, k⟩ <;> rfl

theorem composed_of_found (hfound : j.missing h = []) {xs ys : List Step} (hsteps : j.steps = xs ++ ys) :
    (j.execute root).on h = match ((j.doing xs).execute root).on h with
      | (.ok (), k) => ((j.doing ys).execute root).on k
      | (.error f, k) => (.error f, k) := by
  rw [on_execute_of_found j root hfound, on_execute_doing j root hfound, hsteps, Act.on_forM_append]
  rcases hon : (xs.forM (j.step root)).on h with ⟨f | ⟨⟩, k⟩
  · rfl
  · exact (on_execute_doing j root (missing_after j root hfound hon) ys).symm

theorem execute_eq_error (hfound : j.missing h = []) (f : Fault) (k : Host) :
    (j.execute root).on h = (.error f, k) ↔ ∃ xs s ys k₀, j.steps = xs ++ s :: ys ∧
      ((j.doing xs).execute root).on h = (.ok (), k₀) ∧ (s.execute j root).on (j.announced s k₀) = (.error f, k) := by
  rw [on_execute_of_found j root hfound, Act.on_forM_eq_error]
  simp only [on_execute_doing j root hfound, on_step]

/-- A job runs its steps strictly in sequence, unless a program that it requires is missing: then it ends with
an error that lists the missing ones, and nothing is done at all. -/
theorem steps_in_sequence (h : Host) :
    (j.missing h ≠ [] → ∃ e : PipelineError, (j.execute root).on h = (.error (.pipeline e), h) ∧
      (Fault.pipeline e).faultClass = .tool ∧ e.sort = .tools (j.missing h) ∧
      e.message = "Required tools not found: " ++ Text.join " " (j.missing h)) ∧
    (j.missing h = [] → Sequential j root h) := by
  refine ⟨fun hmissing => ⟨_, on_execute_of_missing j root hmissing, rfl, rfl, rfl⟩, fun hfound => ?_⟩
  refine ⟨on_execute_doing j root hfound [], on_execute_single j root hfound,
    fun xs ys => composed_of_found j root hfound, execute_eq_error j root hfound, ?_⟩
  constructor
  · rintro ⟨k, hok⟩ xs s ys k₀ hsteps hxs
    rcases hstep : (s.execute j root).on (j.announced s k₀) with ⟨f | ⟨⟩, k'⟩
    · cases hok.symm.trans ((execute_eq_error j root hfound f k').2 ⟨xs, s, ys, k₀, hsteps, hxs, hstep⟩)
    · exact ⟨k', rfl⟩
  · intro hall
    rcases hon : (j.execute root).on h with ⟨f | ⟨⟩, k⟩
    · obtain ⟨xs, s, ys, k₀, hsteps, hxs, hstep⟩ := (execute_eq_error j root hfound f k).1 hon
      obtain ⟨k', hok⟩ := hall xs s ys k₀ hsteps hxs
      cases hok.symm.trans hstep
    · exact ⟨k, rfl⟩

end Job

namespace Sample

/-- A job of three lines for the shell. -/
def delivery : Job where
  name := "delivery"
  steps := [.shell "fetch" "make fetch", .shell "test" "make test", .shell "pack" "make pack"]
  requires := ["make", "tar"]

/-- A host on which the second command fails. -/
def workbench : Host :=
  { replying fun past _ => .ended (if past.length = 1 then 2 else 0) "" "" [] with onPath := ["make", "tar"] }

end Sample

namespace Job

/-- The job ends with its second step and never begins the third; without its programs it does nothing. -/
theorem steps_in_sequence_sample :
    (Sample.delivery.missing { Sample.workbench with onPath := ["make"] } = ["tar"] ∧
      ∃ e : PipelineError, e.message = "Required tools not found: tar" ∧
        (Sample.delivery.execute ⟨1, ["src"]⟩).on { Sample.workbench with onPath := ["make"] } =
          (.error (.pipeline e), { Sample.workbench with onPath := ["make"] })) ∧
    Sample.delivery.missing Sample.workbench = [] ∧ Sequential Sample.delivery ⟨1, ["src"]⟩ Sample.workbench ∧
    ((Sample.delivery.execute ⟨1, ["src"]⟩).on Sample.workbench).2.started.map (·.program.text) =
      ["make fetch", "make test"] := by
  have hmissing : Sample.delivery.missing { Sample.workbench with onPath := ["make"] } = ["tar"] := by decide +kernel
  have hfound : Sample.delivery.missing Sample.workbench = [] := by decide +kernel
  obtain ⟨e, hon, -, -, hmessage⟩ :=
    (steps_in_sequence Sample.delivery ⟨1, ["src"]⟩ { Sample.workbench with onPath := ["make"] }).1
      (by rw [hmissing]; exact List.cons_ne_nil _ _)
  refine ⟨⟨hmissing, e, ?_, hon⟩, hfound, (steps_in_sequence _ _ _).2 hfound, by decide +kernel⟩
  rw [hmessage, hmissing]
  rfl

end Job

end CiPipeline
