import CiPipeline.Proofs.Build.Course

/-
How a build ends if it cannot be configured, compiled or installed. What keeps a phase from being completed
(`Stuck`) is reported as an error of the build that names the phase if a command ended with another code than
nought or was not found; any other fault surfaces as it came (`failure_surfaces`).
-/

namespace CiPipeline

theorem FileTree.makeDirectory_ne_noEntry {t : FileTree} {place : List String} :
    t.makeDirectory place ≠ .error .noEntry := by
  unfold makeDirectory
  extract_lets isFile
  split
  · exact nofun
  split
  · exact nofun
  · exact nofun

theorem Host.hasFile_congr {h k : Host} (hbare : h.bare = k.bare) (p : Path) : h.hasFile p = k.hasFile p := by
  have hsame : h.bare.hasFile p = k.hasFile p := by rw [hbare]; rfl
  exact hsame

namespace Build

variable {c : BuildConfig} {p : BuildPhase} {x : Command} {f : Fault} {r : Except Fault Ended} {h k s : Host}

/-! ## What keeps a phase from being completed -/

/-- A command is run with success. -/
def Succeeds (x : Command) (h : Host) : Prop := ∃ e, x.outcome h = .ok e ∧ e.isSuccess = true

/-- The script of the sources is run with success in the build directory, if there is one. -/
def Scripts (c : BuildConfig) (h : Host) : Prop :=
  (withDirectory c h).hasFile (configureScript c) = true → Succeeds (scriptCommand c) (withDirectory c h)

/-- The host when the script has been run, if there is one. -/
def scripted (c : BuildConfig) (h : Host) : Host :=
  if (withDirectory c h).hasFile (configureScript c) then (scriptCommand c).left (withDirectory c h)
  else withDirectory c h

/-- A phase that begins on a host is not completed: the build directory cannot be made, or what comes of a command
of the phase is no success. For an editable install whose end is reported a regular one makes up. -/
inductive Stuck (c : BuildConfig) (h : Host) : BuildPhase → Except Fault Ended → Prop
  | directory {e : OsError} (hno : h.files.makeDirectory c.build.parts = .error e) :
      Stuck c h .configure (.error (.os e c.build.text))
  | script {files : FileTree} (hmade : h.files.makeDirectory c.build.parts = .ok files)
      (hthere : (withDirectory c h).hasFile (configureScript c) = true)
      (hno : ¬ Succeeds (scriptCommand c) (withDirectory c h)) :
      Stuck c h .configure ((scriptCommand c).outcome (withDirectory c h))
  | configure {files : FileTree} (hmade : h.files.makeDirectory c.build.parts = .ok files) (hscripts : Scripts c h)
      (hno : ¬ Succeeds (configureCommand c) (scripted c h)) :
      Stuck c h .configure ((configureCommand c).outcome (scripted c h))
  | compile (hno : ¬ Succeeds (compileCommand c) h) : Stuck c h .compile ((compileCommand c).outcome h)
  | editable (hno : ¬ Succeeds (editableCommand c h) h)
      (hother : isReported ((editableCommand c h).outcome h) = false) :
      Stuck c h .install ((editableCommand c h).outcome h)
  | regular (hreported : isReported ((editableCommand c h).outcome h) = true)
      (hno : ¬ Succeeds (regularCommand c h) ((editableCommand c h).left h)) :
      Stuck c h .install ((regularCommand c h).outcome ((editableCommand c h).left h))

/-! ## The commands of a phase -/

theorem verdict_of_succeeds (p : BuildPhase) (hyes : Succeeds x h) : verdict p x (x.outcome h) = .ok () := by
  obtain ⟨e, hok, hsuccess⟩ := hyes
  rw [hok, verdict, if_pos hsuccess]

theorem verdict_of_not_succeeds (p : BuildPhase) (hno : ¬ Succeeds x h) :
    ∃ f, verdict p x (x.outcome h) = .error f := by
  cases hr : x.outcome h with
  | error f => exact ⟨_, rfl⟩
  | ok e => exact ⟨_, if_neg fun hsuccess => hno ⟨e, hr, hsuccess⟩⟩

/-- A success is nothing to report. -/
theorem isReported_of_succeeds (hyes : Succeeds x h) : isReported (x.outcome h) = false := by
  obtain ⟨e, hok, hsuccess⟩ := hyes
  rw [hok, isReported, hsuccess]
  rfl

section

variable {argv : List String} {cwd : Path} {env : Option (Dict Value)}

theorem on_perform_ok (p : BuildPhase) (hbare : k.bare = h.bare) (hyes : Succeeds (commandIn cwd argv env) h) :
    ∃ k', (perform p argv cwd env).on k = (.ok (), k') ∧ k'.bare = ((commandIn cwd argv env).left h).bare := by
  obtain ⟨k', hon, hk'⟩ := on_perform_congr p argv cwd env hbare
  rw [verdict_of_succeeds p hyes] at hon
  exact ⟨k', hon, hk'⟩

theorem on_perform_error (p : BuildPhase) (hbare : k.bare = h.bare) (hno : ¬ Succeeds (commandIn cwd argv env) h) :
    ∃ f k', verdict p (commandIn cwd argv env) ((commandIn cwd argv env).outcome h) = .error f ∧
      (perform p argv cwd env).on k = (.error f, k') ∧ k'.bare = ((commandIn cwd argv env).left h).bare := by
  obtain ⟨k', hon, hk'⟩ := on_perform_congr p argv cwd env hbare
  obtain ⟨f, hf⟩ := verdict_of_not_succeeds p hno
  rw [hf] at hon
  exact ⟨f, k', hf, hon, hk'⟩

end

/-! ## Configuring -/

theorem on_configure {files : FileTree} (hmade : h.files.makeDirectory c.build.parts = .ok files) : ∃ k,
    (configure c).on h = (configureThere c).on k ∧ k.bare = (withDirectory c h).bare := by
  have hinfo := Act.on_plain (Level.info.line "Configuring build...") h
  rw [configure_eq]
  refine ⟨_, (Act.on_bind_ok hinfo).trans (Act.on_bind_ok (on_makeDirectory hmade)), ?_⟩
  rw [withDirectory_eq hmade]
  rfl

theorem on_configure_error {e : OsError} (hno : h.files.makeDirectory c.build.parts = .error e) : ∃ k,
    (configure c).on h = (.error (.os e c.build.text), k) := by
  have hinfo := Act.on_plain (Level.info.line "Configuring build...") h
  exact ⟨_, (Act.on_bind_ok hinfo).trans (Act.on_bind_error (on_makeDirectory_error hno))⟩

theorem on_configureThere (hscripts : Scripts c h) (hbare : k.bare = (withDirectory c h).bare) : ∃ k',
    (configureThere c).on k = (configureScripted c).on k' ∧ k'.bare = (scripted c h).bare := by
  rw [configureThere, Act.on_bind_ok (Act.on_get k), Host.hasFile_congr hbare, scripted]
  split
  case isTrue hthere =>
    have hinfo := Act.on_plain (Level.info.line "Generating CMake configuration...") k
    obtain ⟨k', hon, hk'⟩ := on_perform_ok .configure (k := Act.noting k _) hbare (hscripts hthere)
    exact ⟨k', (Act.on_bind_ok hinfo).trans (Act.on_bind_ok hon), hk'⟩
  case isFalse => exact ⟨k, rfl, hbare⟩

theorem on_configureThere_error (hbare : k.bare = (withDirectory c h).bare)
    (hthere : (withDirectory c h).hasFile (configureScript c) = true)
    (hno : ¬ Succeeds (scriptCommand c) (withDirectory c h)) : ∃ f k',
    verdict .configure (scriptCommand c) ((scriptCommand c).outcome (withDirectory c h)) = .error f ∧
      (configureThere c).on k = (.error f, k') := by
  rw [configureThere, Act.on_bind_ok (Act.on_get k), Host.hasFile_congr hbare, if_pos hthere]
  have hinfo := Act.on_plain (Level.info.line "Generating CMake configuration...") k
  obtain ⟨f, k', hf, herror, -⟩ := on_perform_error .configure (k := Act.noting k _) hbare hno
  exact ⟨f, k', hf, (Act.on_bind_ok hinfo).trans (Act.on_bind_error herror)⟩

/-! ## Installing -/

theorem on_install (c : BuildConfig) (h : Host) : ∃ k, (install c).on h = Act.on (do
    installIn c (sourceEnv c.source h)
    Console.success "Python package installed") k ∧ k.bare = h.bare := by
  rw [install_eq]
  obtain ⟨k, hon, hbare⟩ := (Act.prints_info "Installing Python package...").on_then _ h
  have henv : sourceEnv c.source k.bare = sourceEnv c.source h := by
    rw [hbare]
    rfl
  refine ⟨k, ?_, hbare⟩
  rw [hon, Act.on_bind_ok (Act.on_get k), ← henv]
  rfl

theorem on_installIn_editable (hbare : k.bare = h.bare) (hyes : Succeeds (editableCommand c h) h) : ∃ k',
    (installIn c (sourceEnv c.source h)).on k = (.ok (), k') := by
  obtain ⟨k', hon, -⟩ := on_perform_ok .install hbare hyes
  exact ⟨k', Act.on_recover_ok hon _ _⟩

theorem on_installIn_other (hbare : k.bare = h.bare) (hno : ¬ Succeeds (editableCommand c h) h)
    (hother : isReported ((editableCommand c h).outcome h) = false) : ∃ f k',
    verdict .install (editableCommand c h) ((editableCommand c h).outcome h) = .error f ∧
      (installIn c (sourceEnv c.source h)).on k = (.error f, k') := by
  obtain ⟨f, k', hf, hon, -⟩ := on_perform_error .install hbare hno
  exact ⟨f, k', hf, Act.on_recover_other hon ((isBuildError_verdict hf).trans hother) _⟩

theorem on_installIn_regular (hbare : k.bare = h.bare)
    (hreported : isReported ((editableCommand c h).outcome h) = true) : ∃ k',
    (installIn c (sourceEnv c.source h)).on k =
      (perform .install [python, "-m", "pip", "install", "."] c.source (some (sourceEnv c.source h))).on k' ∧
    k'.bare = ((editableCommand c h).left h).bare := by
  have hno : ¬ Succeeds (editableCommand c h) h := by
    intro hyes
    rw [isReported_of_succeeds hyes] at hreported
    cases hreported
  obtain ⟨f, k', hf, hon, hk'⟩ := on_perform_error .install hbare hno
  obtain ⟨k'', hregular, hk''⟩ :=
    (Act.prints_warning "Development install failed, trying regular install...").on_then
      (perform .install [python, "-m", "pip", "install", "."] c.source (some (sourceEnv c.source h))) k'
  refine ⟨k'', ?_, hk''.trans hk'⟩
  rw [installIn, installEditable, Act.on_recover_error hon, if_pos ((isBuildError_verdict hf).trans hreported)]
  exact hregular

/-! ## Completed or stuck -/

/-- A fault with which a phase ends on account of what came of something: the phase is named exactly if that is
reported, and otherwise the fault is the one that came. -/
def Surfaces (p : BuildPhase) (r : Except Fault Ended) (f : Fault) : Prop :=
  (Names p f ↔ isReported r = true) ∧ (isReported r = false → r = .error f)

theorem surfaces_of_verdict (hf : verdict p x (x.outcome h) = .error f) : Surfaces p (x.outcome h) f := by
  refine ⟨names_iff hf, fun hno => ?_⟩
  rcases verdict_eq_error hf with ⟨-, -, hyes, -⟩ | ⟨-, hsame, -⟩
  · rw [hno] at hyes
    cases hyes
  · exact hsame

/-- A directory that cannot be made is not one that is missing. -/
theorem surfaces_of_directory {e : OsError} (hno : h.files.makeDirectory c.build.parts = .error e) :
    Surfaces .configure (.error (.os e c.build.text)) (.os e c.build.text) := by
  have hother : isReported (.error (.os e c.build.text)) = false := by
    cases e with
    | noEntry => exact absurd hno FileTree.makeDirectory_ne_noEntry
    | _ => rfl
  refine ⟨iff_of_false ?_ (Bool.eq_false_iff.1 hother), fun _ => rfl⟩
  rintro ⟨e', code, hfault, -⟩
  cases hfault

theorem on_phase_stuck (hstuck : Stuck c h p r) : ∃ f k, (phase c p).on h = (.error f, k) ∧ Surfaces p r f := by
  cases hstuck with
  | directory hno =>
    obtain ⟨k, hon⟩ := on_configure_error hno
    exact ⟨_, k, hon, surfaces_of_directory hno⟩
  | script hmade hthere hno =>
    obtain ⟨k, hon, hbare⟩ := on_configure hmade
    obtain ⟨f, k', hf, herror⟩ := on_configureThere_error hbare hthere hno
    exact ⟨f, k', hon.trans herror, surfaces_of_verdict hf⟩
  | configure hmade hscripts hno =>
    obtain ⟨k, hon, hbare⟩ := on_configure hmade
    obtain ⟨k', hon', hbare'⟩ := on_configureThere hscripts hbare
    obtain ⟨f, k'', hf, herror, -⟩ := on_perform_error .configure hbare' hno
    exact ⟨f, k'', (hon.trans hon').trans (Act.on_bind_error herror), surfaces_of_verdict hf⟩
  | compile hno =>
    have hinfo := Act.on_plain (Level.info.line ("Building MLC-LLM with " ++ toString c.jobs ++ " cores...")) h
    obtain ⟨f, k, hf, herror, -⟩ := on_perform_error .compile (k := Act.noting h _) rfl hno
    exact ⟨f, k, (Act.on_bind_ok hinfo).trans (Act.on_bind_error herror), surfaces_of_verdict hf⟩
  | editable hno hother =>
    obtain ⟨k, hon, hbare⟩ := on_install c h
    obtain ⟨f, k', hf, herror⟩ := on_installIn_other hbare hno hother
    exact ⟨f, k', hon.trans (Act.on_bind_error herror), surfaces_of_verdict hf⟩
  | regular hreported hno =>
    obtain ⟨k, hon, hbare⟩ := on_install c h
    obtain ⟨k', hon', hbare'⟩ := on_installIn_regular hbare hreported
    obtain ⟨f, k'', hf, herror, -⟩ := on_perform_error .install hbare' hno
    exact ⟨f, k'', hon.trans (Act.on_bind_error (hon'.trans herror)), surfaces_of_verdict hf⟩

theorem on_configure_free (hfree : ∀ r, ¬ Stuck c h .configure r) : ∃ k, (configure c).on h = (.ok (), k) := by
  cases hmade : h.files.makeDirectory c.build.parts with
  | error e => exact absurd (.directory hmade) (hfree _)
  | ok files =>
    have hscripts : Scripts c h := fun hthere =>
      Classical.byContradiction fun hno => hfree _ (.script hmade hthere hno)
    have hconfigured : Succeeds (configureCommand c) (scripted c h) :=
      Classical.byContradiction fun hno => hfree _ (.configure hmade hscripts hno)
    obtain ⟨k, hon, hbare⟩ := on_configure hmade
    obtain ⟨k', hon', hbare'⟩ := on_configureThere hscripts hbare
    obtain ⟨k'', hok, -⟩ := on_perform_ok .configure hbare' hconfigured
    exact ⟨_, (hon.trans hon').trans (Act.on_bind_ok hok)⟩

theorem on_compile_free (hfree : ∀ r, ¬ Stuck c h .compile r) : ∃ k, (compile c).on h = (.ok (), k) := by
  have hcompiled : Succeeds (compileCommand c) h := Classical.byContradiction fun hno => hfree _ (.compile hno)
  have hinfo := Act.on_plain (Level.info.line ("Building MLC-LLM with " ++ toString c.jobs ++ " cores...")) h
  obtain ⟨k, hok, -⟩ := on_perform_ok .compile (k := Act.noting h _) rfl hcompiled
  exact ⟨_, (Act.on_bind_ok hinfo).trans (Act.on_bind_ok hok)⟩

theorem on_install_free (hfree : ∀ r, ¬ Stuck c h .install r) : ∃ k, (install c).on h = (.ok (), k) := by
  obtain ⟨k, hon, hbare⟩ := on_install c h
  by_cases hyes : Succeeds (editableCommand c h) h
  · obtain ⟨k', hok⟩ := on_installIn_editable hbare hyes
    exact ⟨_, hon.trans (Act.on_bind_ok hok)⟩
  · cases hreported : isReported ((editableCommand c h).outcome h) with
    | false => exact absurd (.editable hyes hreported) (hfree _)
    | true =>
      have hregular : Succeeds (regularCommand c h) ((editableCommand c h).left h) :=
        Classical.byContradiction fun hno => hfree _ (.regular hreported hno)
      obtain ⟨k', hon', hbare'⟩ := on_installIn_regular hbare hreported
      obtain ⟨k'', hok, -⟩ := on_perform_ok .install hbare' hregular
      exact ⟨_, hon.trans (Act.on_bind_ok (hon'.trans hok))⟩

/-- Configuring, compiling and installing are completed unless they are stuck. A build in which one of them
is stuck ends with an error that names the phase if a command of it ended with another code than nought, or if
its program or its directory was not found, and in no other case. Any other fault surfaces as it came. -/
theorem failure_surfaces (hp : p ∈ [BuildPhase.configure, .compile, .install]) (hbegins : Begins c h p s) :
    ((∃ k, (phase c p).on s = (.ok (), k)) ↔ ∀ r, ¬ Stuck c s p r) ∧
    ∀ r, Stuck c s p r → ∃ f k, (run c).on h = (.error f, k) ∧ (Names p f ↔ isReported r = true) ∧
      (isReported r = false → r = .error f) := by
  refine ⟨⟨?_, fun hfree => ?_⟩, fun r hstuck => ?_⟩
  · rintro ⟨k, hok⟩ r hstuck
    obtain ⟨f, k', herror, -⟩ := on_phase_stuck hstuck
    cases hok.symm.trans herror
  · simp only [List.mem_cons, List.not_mem_nil, or_false] at hp
    rcases hp with rfl | rfl | rfl
    · exact on_configure_free hfree
    · exact on_compile_free hfree
    · exact on_install_free hfree
  · obtain ⟨f, k, herror, hsurfaces⟩ := on_phase_stuck hstuck
    exact ⟨f, k, on_run_failed ⟨s, hbegins, herror⟩, hsurfaces⟩

end Build

namespace Sample

/-- A build of the checkout without what is not necessary. -/
def quickBuild : BuildConfig := { fullBuild with skipDeps := true, skipSubmodules := true, skipTests := true }

/-- A checkout where every command meets with the same reply. -/
def answering (reply : Reply) : Host := { workshop with respond := fun _ _ => reply }

end Sample

namespace Build

theorem begins_quick (reply : Reply) :
    Begins Sample.quickBuild (Sample.answering reply) .configure
      (announced Sample.quickBuild (Sample.answering reply)) :=
  ⟨[], [.compile, .install], rfl, .nil _⟩

theorem outcome_quick (reply : Reply) :
    (configureCommand Sample.quickBuild).outcome (scripted Sample.quickBuild
      (announced Sample.quickBuild (Sample.answering reply))) = (configureCommand Sample.quickBuild).ending reply := by
  obtain ⟨events, -, -, hhost⟩ := announced_eq Sample.quickBuild (Sample.answering reply)
  rw [hhost]
  refine Command.outcome_of_answered ?_
  exact Command.refusal?_eq_none (by decide +kernel) rfl rfl

theorem stuck_quick (reply : Reply)
    (hno : ∀ e, (configureCommand Sample.quickBuild).ending reply = .ok e → e.code ≠ 0) :
    Stuck Sample.quickBuild (announced Sample.quickBuild (Sample.answering reply)) .configure
      ((configureCommand Sample.quickBuild).ending reply) := by
  rw [← outcome_quick reply] at hno ⊢
  obtain ⟨events, -, -, hhost⟩ := announced_eq Sample.quickBuild (Sample.answering reply)
  have hmade : ∃ files, (announced Sample.quickBuild (Sample.answering reply)).files.makeDirectory
      Sample.quickBuild.build.parts = .ok files := by
    rw [hhost]
    exact ⟨_, rfl⟩
  have hscripts : Scripts Sample.quickBuild (announced Sample.quickBuild (Sample.answering reply)) := by
    rw [hhost]
    exact nofun
  refine .configure hmade.choose_spec hscripts ?_
  rintro ⟨e, hok, hsuccess⟩
  exact hno e hok (eq_of_beq hsuccess)

/-- Configuring that ends with code 1 surfaces as an error of the build. -/
theorem failure_surfaces_sample : ∃ f k,
    (run Sample.quickBuild).on (Sample.answering (.ended 1 "" "" [])) = (.error f, k) ∧ Names .configure f := by
  have hstuck := stuck_quick (.ended 1 "" "" []) (by rintro e ⟨⟩; decide)
  obtain ⟨f, k, hon, hnames, -⟩ := (failure_surfaces (by decide) (begins_quick (.ended 1 "" "" []))).2 _ hstuck
  exact ⟨f, k, hon, hnames.2 rfl⟩

/-- Configuring that may not be started does not. -/
theorem denial_not_reported : ∃ k,
    (phase Sample.quickBuild .configure).on (announced Sample.quickBuild (Sample.answering (.refused .denied))) =
      (.error (.os .denied "cmake"), k) ∧
    (run Sample.quickBuild).on (Sample.answering (.refused .denied)) = (.error (.os .denied "cmake"), k) ∧
    ¬ Names .configure (.os .denied "cmake") := by
  have hstuck := stuck_quick (.refused .denied) nofun
  obtain ⟨f, k, herror, -, hother⟩ := on_phase_stuck hstuck
  cases hother rfl
  refine ⟨k, herror, on_run_failed ⟨_, begins_quick _, herror⟩, ?_⟩
  rintro ⟨e, code, hfault, -⟩
  cases hfault

end Build

end CiPipeline
