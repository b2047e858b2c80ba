import CiPipeline.Proofs.Build.Course

/-
Builds with and without their smoke test, on the same host. The smoke test adds one command, one phase and some
warnings (`smoke_test_advises`). It decides neither whether a build ends with a fault nor with which one, unless it
lets the fault of its command through: then the build without it gives a report and the one with it does not.
-/

namespace CiPipeline

namespace Build

variable {c : BuildConfig} {p : BuildPhase} {ps : List BuildPhase} {f : Fault} {h k s : Host}

/-! ## The phases are the same -/

/-- The build with the smoke test left out, or not. -/
def skipping (c : BuildConfig) (skip : Bool) : BuildConfig := { c with skipTests := skip }

theorem phase_skipping (c : BuildConfig) (skip : Bool) : phase (skipping c skip) = phase c := by
  funext p
  cases p <;> rfl

theorem course_skipping (skip : Bool) : Course (skipping c skip) ps h s ↔ Course c ps h s := by
  rw [← on_forM_ok, ← on_forM_ok, phase_skipping]

theorem fails_skipping (skip : Bool) : Fails (skipping c skip) h p f k ↔ Fails c h p f k := by
  have hbegins : ∀ s, Begins (skipping c skip) h p s ↔ Begins c h p s := by
    intro s
    refine exists_congr fun before => exists_congr fun after => and_congr Iff.rfl ?_
    exact course_skipping skip
  refine exists_congr fun s => and_congr (hbegins s) ?_
  rw [phase_skipping]

/-! ## What the smoke test adds -/

theorem phaseNames_skipping (c : BuildConfig) :
    phaseNames (skipping c false) = phaseNames (skipping c true) ++ ["smoke"] := by
  have hnames : phaseNames (skipping c true) = (phases c).map BuildPhase.name ++ [] := rfl
  rw [hnames, List.append_nil]
  rfl

/-- Trying out what was built does not depend on what was printed on the normal output. -/
theorem tested_congr (hsame : k.hushed = s.hushed) : (tested c k).hushed = (tested c s).hushed := by
  have hbare := Host.bare_of_hushed hsame
  have hdisplay : k.hushed.display = s.hushed.display := by rw [hsame]
  change k.display = s.display at hdisplay
  unfold tested
  rw [smokeWarnings_congr hbare, probeCommand_congr c (Host.frame_of_bare hbare), hdisplay]
  cases smokeWarnings c s with
  | error f => exact Host.hushed_left hsame _
  | ok warnings => exact Host.hushed_noting (Host.hushed_left hsame _) _

/-- With its phases completed a build that tries nothing out gives its report. -/
theorem on_run_quiet (hcourse : Course c (phases c) (announced c h) s) : ∃ k,
    (run (skipping c true)).on h = (.ok ⟨phaseNames (skipping c true), []⟩, k) ∧ k.hushed = s.hushed :=
  on_run_completed ((course_skipping true).2 hcourse)

/-- With its phases completed the other build goes by what the smoke test says where the first one ends. -/
theorem on_run_tested (hcourse : Course c (phases c) (announced c h) s) (hsame : k.hushed = s.hushed) : ∃ k',
    (run (skipping c false)).on h = ((smokeWarnings c k).map (⟨phaseNames (skipping c false), ·⟩), k') ∧
      k'.hushed = (tested c k).hushed := by
  obtain ⟨k', hon, hk'⟩ := on_run_completed ((course_skipping false).2 hcourse)
  refine ⟨k', ?_, hk'.trans (tested_congr hsame).symm⟩
  rw [hon, smokeWarnings_congr (Host.bare_of_hushed hsame)]
  rfl

/-- The smoke test of a build is advice, but for the faults that it lets through. If the build without it ends
with a fault, so does the build with it, and in the same way. If the first gives a report, the second starts one
command more. It gives a report with one phase more, where what that command and the libraries bring to light stands
in the warnings; these are printed, and nothing else changes but for what is printed on the normal output. Only
if the fault of that command escapes, that is how the second build ends: a null character stands in the command,
its limit is too long, what it prints is no text, or it is interrupted. -/
theorem smoke_test_advises (c : BuildConfig) (h : Host) :
    (∀ f k, (run (skipping c true)).on h = (.error f, k) → (run (skipping c false)).on h = (.error f, k)) ∧
    (∀ r k, (run (skipping c true)).on h = (.ok r, k) → r.warnings = [] ∧ ∃ k',
      k'.started = k.started ++ [probeCommand c k] ∧ k'.hushed = (tested c k).hushed ∧
      (∀ f, Escapes c k f → (run (skipping c false)).on h = (.error f, k')) ∧
      ((∀ f, ¬ Escapes c k f) → ∃ warnings, smokeWarnings c k = .ok warnings ∧
        (run (skipping c false)).on h = (.ok ⟨r.phases ++ ["smoke"], warnings⟩, k'))) ∧
    ∀ k f, Escapes c k f → f = .nullInPath ∨
      f = .limitTooLong ∧ longestWait < 1000 * k.settings.smokeTimeout ∨
      (∃ code why files, f = .undecodable why ∧
        k.respond k.answered (probeCommand c k) = .garbled code why files) ∨
      f = .interrupted ∧ k.respond k.answered (probeCommand c k) = .interrupted := by
  refine ⟨?_, ?_, fun k f => Escapes.cause⟩
  · intro f k hon
    rcases completed_or_failed c h with ⟨s, hcourse⟩ | ⟨p, g, k', hfails⟩
    · obtain ⟨k', hquiet, -⟩ := on_run_quiet hcourse
      cases hquiet.symm.trans hon
    · cases (on_run_failed ((fails_skipping true).2 hfails)).symm.trans hon
      exact on_run_failed ((fails_skipping false).2 hfails)
  · intro r k hon
    rcases completed_or_failed c h with ⟨s, hcourse⟩ | ⟨p, g, k', hfails⟩
    · obtain ⟨k', hquiet, hk⟩ := on_run_quiet hcourse
      cases hquiet.symm.trans hon
      obtain ⟨k', htested, hk'⟩ := on_run_tested hcourse hk
      refine ⟨rfl, k', ?_, hk', fun f hescapes => ?_, fun hnone => ?_⟩
      · rw [← Host.started_hushed, hk', Host.started_hushed, started_tested]
      · rw [htested, smokeWarnings_eq_error_iff.2 hescapes]
        rfl
      · cases hwarnings : smokeWarnings c k with
        | error f => exact absurd (smokeWarnings_eq_error_iff.1 hwarnings) (hnone f)
        | ok warnings =>
          refine ⟨warnings, rfl, ?_⟩
          rw [htested, hwarnings, phaseNames_skipping]
          rfl
    · cases (on_run_failed ((fails_skipping true).2 hfails)).symm.trans hon

end Build

namespace Sample

/-- A checkout with all tools, where everything succeeds but the import of the module. -/
def importing (reply : Reply) : Host := { workshop with
  respond := fun past _ => if past.length = 5 then reply else .ended 0 "cmake version 3.28.1" "" [] }

end Sample

namespace Build

-- a module that cannot be imported in time, and whose libraries are missing, is there all the same
example : ((run Sample.fullBuild).on (Sample.importing .overran)).1.toOption =
    some ⟨["deps", "submodules", "configure", "compile", "install", "smoke"],
      ["Importing mlc_llm timed out after 60s", "MLC-LLM libraries not found in expected location",
        "TVM runtime libraries not found in expected location"]⟩ := by decide +kernel

/-- A build whose import prints what is no text gives a report only if it leaves the smoke test out. -/
theorem garbled_import_ends_build :
    ((run (skipping Sample.fullBuild true)).on (Sample.importing (.garbled 0 "invalid start byte" []))).1.isOk = true ∧
    ((run (skipping Sample.fullBuild false)).on (Sample.importing (.garbled 0 "invalid start byte" []))).1.mapError
      Fault.message = .error "invalid start byte" :=
  ⟨by decide +kernel, by decide +kernel⟩

end Build

end CiPipeline
