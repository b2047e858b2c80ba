import CiPipeline.Proofs.Build.Smoke

/-
The course of a build: its phases one after another, up to the first that fails, and then the smoke test
(`run_in_order`). Which commands a phase starts is seen on the host that the phases before it have left. A build
ends with a fault if a phase does, and then nothing is done after that. If all phases are completed there is
one way left to end with a fault: the smoke test can let that of its command through.
-/

namespace CiPipeline

namespace Build

variable {c : BuildConfig} {p : BuildPhase} {ps : List BuildPhase} {f : Fault} {h k s : Host}

/-! ## Phases one after another -/

/-- Phases that follow one another, all of them completed, from one host to another. -/
inductive Course (c : BuildConfig) : List BuildPhase → Host → Host → Prop
  | nil (h : Host) : Course c [] h h
  | cons {p : BuildPhase} {ps : List BuildPhase} {h k s : Host} (first : (phase c p).on h = (.ok (), k))
      (rest : Course c ps k s) : Course c (p :: ps) h s

/-- The host on which the first phase begins. -/
def announced (c : BuildConfig) (h : Host) : Host := ((announce c).on h).2

/-- A phase of a build begins on a host: the phases before it are completed. -/
def Begins (c : BuildConfig) (h : Host) (p : BuildPhase) (s : Host) : Prop :=
  ∃ before after, phases c = before ++ p :: after ∧ Course c before (announced c h) s

/-- A phase of a build fails: it begins and ends with a fault, and leaves a host. -/
def Fails (c : BuildConfig) (h : Host) (p : BuildPhase) (f : Fault) (k : Host) : Prop :=
  ∃ s, Begins c h p s ∧ (phase c p).on s = (.error f, k)

/-- The commands of phases, each seen on the host that the phases before it leave. -/
def commandsFrom (c : BuildConfig) : List BuildPhase → Host → List Command
  | [], _ => []
  | p :: ps, h => commandsOf c p h ++ commandsFrom c ps ((phase c p).on h).2

/-- The commands of a build. -/
def commands (c : BuildConfig) (h : Host) : List Command :=
  commandsFrom c (phases c) (announced c h) ++ if c.skipTests then [] else [probeCommand c h]

theorem on_forM_ok : ∀ {ps : List BuildPhase} {h : Host},
    (ps.forM (phase c)).on h = (.ok (), s) ↔ Course c ps h s
  | [], _ => by
    constructor
    · intro hon
      cases hon
      exact .nil _
    · rintro ⟨⟩
      rfl
  | p :: ps, h => by
    constructor
    · intro hon
      rcases hphase : (phase c p).on h with ⟨e | ⟨⟩, k⟩
      · cases (Act.on_bind_error hphase).symm.trans hon
      · exact .cons hphase (on_forM_ok.1 ((Act.on_bind_ok hphase).symm.trans hon))
    · rintro (_ | ⟨hphase, hrest⟩)
      exact (Act.on_bind_ok hphase).trans (on_forM_ok.2 hrest)

theorem on_forM_error {ps : List BuildPhase} {h : Host} :
    (ps.forM (phase c)).on h = (.error f, k) ↔ ∃ before p after s, ps = before ++ p :: after ∧ Course c before h s ∧
      (phase c p).on s = (.error f, k) := by
  rw [Act.on_forM_eq_error]
  simp only [on_forM_ok]

theorem starts_phases : ∀ (ps : List BuildPhase) (h : Host), Act.Starts (ps.forM (phase c)) h (commandsFrom c ps h)
  | [], h => Act.starts_pure () h
  | p :: ps, h => by
    refine (starts_phase c p h).then fun k hon => ?_
    rw [hon]
    exact starts_phases ps k

/-! ## A whole build -/

theorem prints_announce (c : BuildConfig) : Act.Prints (announce c) :=
  (Act.prints_info _).then <| (Act.prints_info _).then <| (Act.prints_info _).then <|
    (Act.prints_info _).then (Act.prints_info _)

theorem announced_eq (c : BuildConfig) (h : Host) : ∃ events, (∀ e ∈ events, Act.IsPrint e) ∧
    (announce c).on h = (.ok (), announced c h) ∧ announced c h = Act.noting h events := by
  obtain ⟨events, hprint, hon⟩ := prints_announce c h
  have hhost : announced c h = Act.noting h events := by rw [announced, hon]
  exact ⟨events, hprint, by rw [hon, hhost], hhost⟩

theorem on_announce (c : BuildConfig) (h : Host) : (announce c).on h = (.ok (), announced c h) := by
  obtain ⟨_, -, hon, -⟩ := announced_eq c h
  exact hon

theorem prints_congratulate : Act.Prints congratulate :=
  (Act.prints_success _).then <| (Act.prints_info _).then <| (Act.prints_info _).then (Act.prints_info _)

theorem on_congratulate (h : Host) : ∃ k, congratulate.on h = (.ok (), k) ∧ k.hushed = h.hushed :=
  ⟨_, rfl, (Act.hushed_noting_out _ _).trans <| (Act.hushed_noting_out _ _).trans <|
    (Act.hushed_noting_out _ _).trans (Act.hushed_noting_out _ _)⟩

/-- The names of the phases of a build, also of the smoke test. -/
def phaseNames (c : BuildConfig) : List String :=
  (phases c).map BuildPhase.name ++ if c.skipTests then [] else ["smoke"]

/-- The end of a build that has come to it. -/
def conclude (c : BuildConfig) (warnings : List String) : Act BuildReport := do
  congratulate
  return ⟨phaseNames c, warnings⟩

theorem run_eq (c : BuildConfig) : run c = (do
    announce c
    (phases c).forM (phase c)
    (if c.skipTests then pure [] else smokeTest c) >>= conclude c) := by
  unfold run conclude phaseNames
  cases c.skipTests <;> rfl

/-- The warnings of a build with its phases completed, or the fault that its smoke test lets through. -/
def warningsOn (c : BuildConfig) (s : Host) : Except Fault (List String) :=
  if c.skipTests then .ok [] else smokeWarnings c s

/-- The host after the smoke test, if that is part of a build. -/
def smoked (c : BuildConfig) (s : Host) : Host := if c.skipTests then s else tested c s

/-- All phases of a build are completed, but its smoke test lets a fault through. -/
def Balks (c : BuildConfig) (h : Host) (f : Fault) : Prop :=
  ∃ s, Course c (phases c) (announced c h) s ∧ c.skipTests = false ∧ Escapes c s f

theorem frame_of_course (hcourse : Course c (phases c) (announced c h) s) : s.frame = h.frame := by
  obtain ⟨events, -, -, hhost⟩ := announced_eq c h
  have hframe := (starts_phases (c := c) (phases c) (announced c h)).frame
  rw [on_forM_ok.2 hcourse, hhost, Host.frame_noting] at hframe
  exact hframe

theorem warningsOn_eq_error_iff : warningsOn c s = .error f ↔ c.skipTests = false ∧ Escapes c s f := by
  unfold warningsOn
  cases hskip : c.skipTests with
  | true => exact iff_of_false nofun fun hno => Bool.noConfusion hno.1
  | false => exact smokeWarnings_eq_error_iff.trans (and_iff_right rfl).symm

theorem on_smoke (c : BuildConfig) (s : Host) : ∃ k,
    (if c.skipTests then pure [] else smokeTest c).on s = (warningsOn c s, k) ∧ k.hushed = (smoked c s).hushed := by
  unfold warningsOn smoked
  split
  · exact ⟨s, rfl, rfl⟩
  · exact on_smokeTest c s

/-- A build whose phases are all completed gives its report, unless the smoke test lets a fault through. -/
theorem on_run_completed (hcourse : Course c (phases c) (announced c h) s) : ∃ k,
    (run c).on h = ((warningsOn c s).map (⟨phaseNames c, ·⟩), k) ∧ k.hushed = (smoked c s).hushed := by
  obtain ⟨k, hon, hk⟩ := on_smoke c s
  rw [run_eq, Act.on_bind_ok (on_announce c h), Act.on_bind_ok (on_forM_ok.2 hcourse)]
  cases hwarnings : warningsOn c s with
  | error f =>
    rw [hwarnings] at hon
    exact ⟨k, Act.on_bind_error hon, hk⟩
  | ok warnings =>
    rw [hwarnings] at hon
    obtain ⟨k', hon', hk'⟩ := on_congratulate k
    refine ⟨k', ?_, hk'.trans hk⟩
    rw [Act.on_bind_ok hon, conclude, Act.on_bind_ok hon', Act.on_pure]
    rfl

theorem on_run_failed (hfails : Fails c h p f k) : (run c).on h = (.error f, k) := by
  obtain ⟨s, ⟨before, after, hphases, hcourse⟩, hfail⟩ := hfails
  have hforM := on_forM_error.2 ⟨before, p, after, s, hphases, hcourse, hfail⟩
  rw [run, Act.on_bind_ok (on_announce c h), Act.on_bind_error hforM]

theorem completed_or_failed (c : BuildConfig) (h : Host) :
    (∃ s, Course c (phases c) (announced c h) s) ∨ ∃ p f k, Fails c h p f k := by
  rcases hon : ((phases c).forM (phase c)).on (announced c h) with ⟨f | ⟨⟩, s⟩
  · obtain ⟨before, p, after, k, hphases, hcourse, hfail⟩ := on_forM_error.1 hon
    exact Or.inr ⟨p, f, s, k, ⟨before, after, hphases, hcourse⟩, hfail⟩
  · exact Or.inl ⟨s, on_forM_ok.1 hon⟩

theorem starts_run (c : BuildConfig) (h : Host) : (run c).Starts h (commands c h) := by
  rw [run_eq, ← List.nil_append (commands c h)]
  refine ((prints_announce c).starts h).then fun k hon => ?_
  obtain rfl : announced c h = k := by
    rw [on_announce] at hon
    cases hon
    rfl
  refine (starts_phases (phases c) _).then fun s hcourse => ?_
  have hprobe : probeCommand c h = probeCommand c s :=
    probeCommand_congr c (frame_of_course (on_forM_ok.1 hcourse)).symm
  have hsmoke : (if c.skipTests then pure [] else smokeTest c).Starts s
      (if c.skipTests then [] else [probeCommand c h]) := by
    split
    · exact Act.starts_pure _ s
    · rw [hprobe]
      exact starts_smokeTest c s
  rw [← List.append_nil (if c.skipTests then [] else [probeCommand c h])]
  refine hsmoke.bind fun warnings k _ => ?_
  exact (prints_congratulate.starts k).bind fun _ _ _ => Act.starts_pure _ _

theorem phaseNames_eq (c : BuildConfig) : phaseNames c =
    (if c.clean then ["clean"] else []) ++ (if c.skipDeps then [] else ["deps"]) ++
      (if c.skipSubmodules then [] else ["submodules"]) ++ ["configure", "compile", "install"] ++
      (if c.skipTests then [] else ["smoke"]) := by
  have hclean : isEnabled c .clean = c.clean := rfl
  have hdeps : isEnabled c .deps = !c.skipDeps := rfl
  have hsubmodules : isEnabled c .submodules = !c.skipSubmodules := rfl
  have hrest : [BuildPhase.configure, .compile, .install].filter (isEnabled c) = [.configure, .compile, .install] := rfl
  unfold phaseNames phases
  rw [List.filter_cons, List.filter_cons, List.filter_cons, hrest, hclean, hdeps, hsubmodules]
  cases c.clean <;> cases c.skipDeps <;> cases c.skipSubmodules <;> rfl

/-- How a build ends with a fault: a phase fails, or the smoke test lets one through. -/
theorem exists_error_iff (c : BuildConfig) (h : Host) (f : Fault) :
    (∃ k, (run c).on h = (.error f, k)) ↔ (∃ p k, Fails c h p f k) ∨ Balks c h f := by
  constructor
  · rintro ⟨k, hon⟩
    rcases completed_or_failed c h with ⟨s, hcourse⟩ | ⟨p, g, k', hfails⟩
    · obtain ⟨k', hrun, -⟩ := on_run_completed hcourse
      have hwarnings : warningsOn c s = .error f := by
        rw [hrun] at hon
        cases hw : warningsOn c s with
        | ok warnings => rw [hw] at hon; cases hon
        | error g => rw [hw] at hon; cases hon; rfl
      exact .inr ⟨s, hcourse, warningsOn_eq_error_iff.1 hwarnings⟩
    · cases (on_run_failed hfails).symm.trans hon
      exact .inl ⟨p, k, hfails⟩
  · rintro (⟨p, k, hfails⟩ | ⟨s, hcourse, hescapes⟩)
    · exact ⟨k, on_run_failed hfails⟩
    · obtain ⟨k, hrun, -⟩ := on_run_completed hcourse
      rw [warningsOn_eq_error_iff.2 hescapes] at hrun
      exact ⟨k, hrun⟩

/-- A build goes through its phases in order. What it starts is a beginning of its commands, and all of
them if it gives a report; that report names the phases that are enabled. If a phase fails, the build ends with
its fault and as that phase leaves the host. There is one other fault that a build ends with: when all phases are
completed, the smoke test lets through the fault of its command if that is neither the system's nor that of a
command that takes too long. Whether the sources have a script for their configuration can be seen before the
build directory is made. -/
theorem run_in_order (c : BuildConfig) (h : Host) :
    (∃ done, done <+: commands c h ∧ ((run c).on h).2.started = h.started ++ done) ∧
    (∀ p f k, Fails c h p f k → (run c).on h = (.error f, k)) ∧
    (∀ f, (∃ k, (run c).on h = (.error f, k)) ↔ (∃ p k, Fails c h p f k) ∨ Balks c h f) ∧
    (∀ r k, (run c).on h = (.ok r, k) → k.started = h.started ++ commands c h ∧
      r.phases = (if c.clean then ["clean"] else []) ++ (if c.skipDeps then [] else ["deps"]) ++
        (if c.skipSubmodules then [] else ["submodules"]) ++ ["configure", "compile", "install"] ++
        (if c.skipTests then [] else ["smoke"])) ∧
    ∀ (r : BuildRequest) k s, r.config k = .ok c → s.files.IsTree → commandsOf c .configure s =
      (if s.hasFile (configureScript c) then [scriptCommand c] else []) ++ [configureCommand c] := by
  obtain ⟨-, done, hpre, hdone, hall⟩ := starts_run c h
  refine ⟨⟨done, hpre, hdone⟩, fun p f k => on_run_failed, exists_error_iff c h, fun r k hon => ⟨?_, ?_⟩,
    fun r k s hc htree => ?_⟩
  · rw [hon] at hdone hall
    rw [← hall r rfl]
    exact hdone
  · rcases completed_or_failed c h with ⟨s, hcourse⟩ | ⟨p, f, k', hfails⟩
    · obtain ⟨k', hrun, -⟩ := on_run_completed hcourse
      rw [hrun] at hon
      cases hw : warningsOn c s with
      | error f => rw [hw] at hon; cases hon
      | ok warnings =>
        rw [hw] at hon
        cases hon
        exact phaseNames_eq c
    · cases (on_run_failed hfails).symm.trans hon
  · rw [commandsOf, hasScript_withDirectory hc htree]

end Build

namespace Sample

/-- A checkout with submodules and all tools, where compiling fails. -/
def workshop : Host where
  here := ⟨1, []⟩
  files := ⟨[(["src"], .directory), (["src", ".gitmodules"], .file "")]⟩
  onPath := ["cmake", "git", "python", "rustc"]
  clock := ⟨2024, 1, 1, 0, 0, 0⟩
  settings := ⟨"", "", "", "main", 60⟩
  respond := fun past _ => .ended (if past.length = 3 then 2 else 0) "cmake version 3.28.1" "" []

/-- A checkout where everything succeeds, with a longer limit for the smoke test than one can wait for. -/
def patient : Host := { workshop with
  settings := ⟨"", "", "", "main", 2147484⟩
  respond := fun _ _ => .ended 0 "cmake version 3.28.1" "" [] }

/-- A build of the checkout. -/
def fullBuild : BuildConfig where
  kind := .release
  jobs := 4
  jobs_pos := by decide
  source := ⟨1, ["src"]⟩
  build := ⟨1, ["src", "build"]⟩
  installPrefix := "/usr/local"
  cmakeOptions := []

end Sample

namespace Build

-- when compiling fails, nothing is installed and nothing tried out
example : ((run Sample.fullBuild).on Sample.workshop).2.started.map (·.program.text) =
    ["cmake --version", "git submodule update --init --recursive",
      "cmake -DCMAKE_BUILD_TYPE=Release -DCMAKE_INSTALL_PREFIX=/usr/local /src",
      "cmake --build . --parallel 4 --config Release"] := by decide +kernel

/-- A build can end with a fault though none of its phases fails. -/
theorem balks_without_failure :
    ((run Sample.fullBuild).on Sample.patient).1.mapError Fault.message = .error "timeout is too large" ∧
    ¬ ∃ p f k, Fails Sample.fullBuild Sample.patient p f k := by
  have hcompleted : (((phases Sample.fullBuild).forM (phase Sample.fullBuild)).on
      (announced Sample.fullBuild Sample.patient)).1.isOk = true := by decide +kernel
  refine ⟨by decide +kernel, ?_⟩
  rintro ⟨p, f, k, s, ⟨before, after, hphases, hcourse⟩, hfail⟩
  rw [on_forM_error.2 ⟨before, p, after, s, hphases, hcourse, hfail⟩] at hcompleted
  cases hcompleted

end Build

end CiPipeline
