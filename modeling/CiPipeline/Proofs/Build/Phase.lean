import CiPipeline.Proofs.Build.Directory
import CiPipeline.Proofs.Toolchain

/-
The phases of a build one by one: which commands each of them starts when it begins on a host
(`starts_phase`), and what a phase makes of how a command of it comes out (`verdict`). That is reported as an
error of the build if the command ended with another code than nought or was not found, and in no other case
(`names_iff`); any other fault stays as it came.
-/

namespace CiPipeline

namespace Build

/-! ## The commands of a build -/

/-- A command of a phase. -/
def commandIn (cwd : Path) (argv : List String) (env : Option (Dict Value) := none) : Command :=
  { program := .words argv, cwd := some cwd.text, env := env }

def submodulesCommand (c : BuildConfig) : Command :=
  commandIn c.source ["git", "submodule", "update", "--init", "--recursive"]

def scriptCommand (c : BuildConfig) : Command := commandIn c.build [python, (configureScript c).text]

def configureCommand (c : BuildConfig) : Command := commandIn c.build (configureWords c)

def compileCommand (c : BuildConfig) : Command := commandIn c.build (compileWords c)

/-- Installs the module so that changes to the sources take effect. -/
def editableCommand (c : BuildConfig) (h : Host) : Command :=
  commandIn c.source [python, "-m", "pip", "install", "-e", "."] (some (sourceEnv c.source h))

/-- Installs the module as it is. -/
def regularCommand (c : BuildConfig) (h : Host) : Command :=
  commandIn c.source [python, "-m", "pip", "install", "."] (some (sourceEnv c.source h))

def installEditable (c : BuildConfig) (env : Dict Value) : Act Unit :=
  perform .install [python, "-m", "pip", "install", "-e", "."] c.source (some env)

/-- Whether a fault is an error of the build. -/
def isBuildError (f : Fault) : Bool := f.faultClass == .build

/-- The commands of a phase that begins on a host. -/
def commandsOf (c : BuildConfig) : BuildPhase → Host → List Command
  | .clean, _ => []
  | .deps, h =>
    if ∀ tool ∈ Toolchain.required.entries, h.finds tool.2 = true then [Toolchain.versionAsk "cmake"] else []
  | .submodules, h => if h.hasFile (c.source.child ".gitmodules") then [submodulesCommand c] else []
  | .configure, h =>
    (if (withDirectory c h).hasFile (configureScript c) then [scriptCommand c] else []) ++ [configureCommand c]
  | .compile, _ => [compileCommand c]
  | .install, h =>
    editableCommand c h ::
      if Act.endsIn isBuildError ((installEditable c (sourceEnv c.source h)).on h).1 then [regularCommand c h] else []

/-! ## A command that has to succeed -/

/-- What a phase makes of what comes of a command of it. -/
def verdict (p : BuildPhase) (x : Command) : Except Fault Ended → Except Fault Unit
  | .ok e =>
    if e.isSuccess then .ok ()
    else .error (.pipeline (.build p.name (x.program.text ++ " exited with " ++ toString e.code) (some e.code)))
  | .error f =>
    .error (if f.isNotFound then .pipeline (.build p.name (x.program.name ++ " not found: " ++ f.message)) else f)

/-- Whether what comes of a command of a phase is reported as an error of the build. -/
def isReported : Except Fault Ended → Bool
  | .ok e => !e.isSuccess
  | .error f => f.isNotFound

/-- A fault is an error of the build that names a phase. -/
def Names (p : BuildPhase) (f : Fault) : Prop := ∃ e code, f = .pipeline e ∧ e.sort = .build p.name code

variable {c : BuildConfig} {p : BuildPhase} {x : Command} {h k : Host} {f : Fault}

/-- What is reported is an error of the build that names the phase; what is not stays the fault that it is. -/
theorem verdict_eq_error (hf : verdict p x (x.outcome h) = .error f) :
    (∃ e code, isReported (x.outcome h) = true ∧ f = .pipeline e ∧ e.sort = .build p.name code) ∨
      isReported (x.outcome h) = false ∧ x.outcome h = .error f ∧ f.faultClass.isPipeline = false := by
  cases hr : x.outcome h with
  | ok e =>
    rw [hr, verdict] at hf
    split at hf
    case isTrue => cases hf
    case isFalse hfailed =>
      cases hf
      exact .inl ⟨_, _, by simpa [isReported] using hfailed, rfl, rfl⟩
  | error g =>
    rw [hr, verdict] at hf
    split at hf
    case isTrue hfound =>
      cases hf
      exact .inl ⟨_, _, hfound, rfl, rfl⟩
    case isFalse hfound =>
      cases hf
      exact .inr ⟨Bool.eq_false_iff.2 hfound, rfl, Command.isPipeline_of_outcome hr⟩

theorem isBuildError_verdict (hf : verdict p x (x.outcome h) = .error f) :
    isBuildError f = isReported (x.outcome h) := by
  rcases verdict_eq_error hf with ⟨e, code, hyes, rfl, hsort⟩ | ⟨hno, -, hforeign⟩
  · rw [hyes]
    simp [isBuildError, Fault.faultClass, hsort]
  · rw [hno, isBuildError]
    cases hclass : f.faultClass <;> rw [hclass] at hforeign <;> first | rfl | cases hforeign

/-- What is reported names its phase. -/
theorem names_iff (hf : verdict p x (x.outcome h) = .error f) : Names p f ↔ isReported (x.outcome h) = true := by
  rcases verdict_eq_error hf with ⟨e, code, hyes, hfault, hsort⟩ | ⟨hno, -, hforeign⟩
  · exact iff_of_true ⟨e, code, hfault, hsort⟩ hyes
  · rw [hno]
    refine iff_of_false ?_ Bool.false_ne_true
    rintro ⟨e, code, rfl, hsort⟩
    simp [Fault.faultClass, hsort, FaultClass.isPipeline] at hforeign

section

variable {argv : List String} {cwd : Path} {env : Option (Dict Value)}

/-- What comes of a command of a phase, whatever is printed before. -/
theorem on_perform (p : BuildPhase) (argv : List String) (cwd : Path) (env : Option (Dict Value)) (h : Host) :
    ∃ events, (∀ e ∈ events, Act.IsPrint e) ∧ (perform p argv cwd env).on h =
      (verdict p (commandIn cwd argv env) ((commandIn cwd argv env).outcome h),
        (commandIn cwd argv env).left (Act.noting h events)) := by
  obtain ⟨events, hprint, hdebug⟩ :=
    Act.prints_debug ("$ " ++ Text.join " " argv ++ "  (cwd=" ++ cwd.text ++ ")") h
  refine ⟨events, hprint, ?_⟩
  have hstart := Command.on_start (commandIn cwd argv env) (Act.noting h events)
  have hsame : (commandIn cwd argv env).outcome (Act.noting h events) = (commandIn cwd argv env).outcome h := rfl
  let unfound (f : Fault) : Act Ended :=
    .fail (.pipeline (.build p.name ((commandIn cwd argv env).program.name ++ " not found: " ++ f.message)))
  rw [hsame] at hstart
  rw [perform, Act.on_bind_ok hdebug]
  cases hr : (commandIn cwd argv env).outcome h with
  | ok e =>
    rw [hr] at hstart
    refine (Act.on_bind_ok (Act.on_recover_ok hstart Fault.isNotFound unfound)).trans ?_
    cases hsuccess : e.isSuccess <;> simp only [verdict, hsuccess] <;> rfl
  | error f =>
    rw [hr] at hstart
    have hrecover := Act.on_recover_error hstart Fault.isNotFound unfound
    cases hfound : f.isNotFound <;> rw [hfound] at hrecover <;> simp only [verdict, hfound] <;>
      exact Act.on_bind_error hrecover

theorem on_perform_congr (p : BuildPhase) (argv : List String) (cwd : Path) (env : Option (Dict Value))
    (hbare : k.bare = h.bare) : ∃ k', (perform p argv cwd env).on k =
        (verdict p (commandIn cwd argv env) ((commandIn cwd argv env).outcome h), k') ∧
      k'.bare = ((commandIn cwd argv env).left h).bare := by
  obtain ⟨events, -, hon⟩ := on_perform p argv cwd env k
  rw [Command.outcome_congr hbare] at hon
  exact ⟨_, hon, Command.bare_left_congr ((Host.bare_noting k events).trans hbare) _⟩

theorem starts_perform (p : BuildPhase) (argv : List String) (cwd : Path) (env : Option (Dict Value)) (h : Host) :
    (perform p argv cwd env).Starts h [commandIn cwd argv env] := by
  obtain ⟨events, hprint, hon⟩ := on_perform p argv cwd env h
  refine Act.starts_of_on hon ((Host.frame_left _ _).trans rfl) ?_
  rw [Command.started_left, Host.started_noting h hprint]

end

/-! ## Phase by phase -/

theorem makeDirectory_ok (hon : (makeDirectory c.build).on h = (.ok (), k)) : k = withDirectory c h := by
  cases hmade : h.files.makeDirectory c.build.parts with
  | error e =>
    rw [on_makeDirectory_error hmade] at hon
    cases hon
  | ok files =>
    rw [on_makeDirectory hmade] at hon
    cases hon
    exact (withDirectory_eq hmade).symm

theorem starts_makeDirectory (path : Path) (h : Host) : (makeDirectory path).Starts h [] := by
  cases hmade : h.files.makeDirectory path.parts with
  | error e => exact Act.starts_of_on (on_makeDirectory_error hmade) rfl (List.append_nil _).symm
  | ok files => exact Act.starts_of_on (on_makeDirectory hmade) rfl (List.append_nil _).symm

theorem withDirectory_noting (c : BuildConfig) (h : Host) (events : List Event) :
    withDirectory c (Act.noting h events) = Act.noting (withDirectory c h) events := by
  have hsame : (Act.noting h events).files.makeDirectory c.build.parts = h.files.makeDirectory c.build.parts := rfl
  unfold withDirectory
  rw [hsame]
  cases h.files.makeDirectory c.build.parts <;> rfl

theorem starts_removeTree (path : Path) (h : Host) : (removeTree path).Starts h [] := by
  apply Act.starts_get_bind
  cases h.files.removeDirectory path.parts with
  | ok files => exact ⟨rfl, [], List.prefix_refl _, (List.append_nil _).symm, fun _ _ => rfl⟩
  | error e => cases e <;> exact Act.starts_fail _ h

theorem starts_clean (c : BuildConfig) (h : Host) : (clean c).Starts h (commandsOf c .clean h) := by
  refine (Act.prints_info _).starts_then fun events => Act.starts_get_bind ?_
  split
  · exact starts_removeTree _ _
  · exact Act.starts_pure _ _

theorem starts_deps (c : BuildConfig) (h : Host) : checkDependencies.Starts h (commandsOf c .deps h) := by
  refine (Act.prints_info _).starts_then fun events => Act.Starts.then_prints ?_ (Act.prints_success _)
  have hsame : commandsOf c .deps h = commandsOf c .deps (Act.noting h events) := rfl
  rw [hsame, commandsOf]
  generalize Act.noting h events = k at *
  -- no tool is asked for its version unless all of them are there
  split
  case isTrue hfound =>
    have hcheck := Toolchain.on_check_of_found (Toolchain.missing_eq_nil_iff.2 hfound) "3.24.0"
      (show Toolchain.required.get? "cmake" = some "cmake" by decide)
    obtain ⟨e, -, hon⟩ := Toolchain.on_checkVersion "cmake" "cmake" "3.24.0" k
    exact Act.starts_of_on (hcheck.trans hon) (Host.frame_left _ _) (Command.started_left _ _)
  case isFalse hmissing =>
    have hcheck : (Toolchain.check Toolchain.required Toolchain.leastVersions).on k = _ :=
      Toolchain.on_check_of_missing fun hnil => hmissing (Toolchain.missing_eq_nil_iff.1 hnil)
    exact Act.starts_of_on hcheck rfl (List.append_nil _).symm

theorem starts_submodules (c : BuildConfig) (h : Host) : (initSubmodules c).Starts h (commandsOf c .submodules h) := by
  refine (Act.prints_info _).starts_then fun events => ?_
  have hasks : (Git.hasSubmodules c.source).on (Act.noting h events) =
      (.ok (h.hasFile (c.source.child ".gitmodules")), Act.noting h events) := rfl
  have hwords : commandsOf c .submodules h =
      [] ++ if h.hasFile (c.source.child ".gitmodules") then [submodulesCommand c] else [] := rfl
  rw [hwords]
  refine Act.Starts.bind (Act.starts_of_on hasks rfl (List.append_nil _).symm) fun there k hon => ?_
  rw [hasks] at hon
  cases hon
  split
  case isTrue => exact (starts_perform ..).then_prints (Act.prints_success _)
  case isFalse => exact (Act.prints_warning _).starts _

/-- Configures a build whose script has been run. -/
def configureScripted (c : BuildConfig) : Act Unit := do
  perform .configure (configureWords c) c.build
  Console.success "Build configured"

/-- Configures a build whose directory is there. -/
def configureThere (c : BuildConfig) : Act Unit :=
  get >>= fun h =>
    if h.hasFile (configureScript c) then do
      Console.info "Generating CMake configuration..."
      perform .configure [python, (configureScript c).text] c.build
      configureScripted c
    else configureScripted c

theorem configure_eq (c : BuildConfig) : configure c = (do
    Console.info "Configuring build..."
    makeDirectory c.build
    configureThere c) := rfl

theorem starts_configureThere (c : BuildConfig) (h : Host) : (configureThere c).Starts h
    ((if h.hasFile (configureScript c) then [scriptCommand c] else []) ++ [configureCommand c]) := by
  have hlast : ∀ k, (configureScripted c).Starts k [configureCommand c] :=
    fun k => (starts_perform ..).then_prints (Act.prints_success _)
  apply Act.starts_get_bind
  split
  case isTrue => exact (Act.prints_info _).starts_then fun _ => (starts_perform ..).then fun k _ => hlast k
  case isFalse => exact hlast h

theorem starts_configure (c : BuildConfig) (h : Host) : (configure c).Starts h (commandsOf c .configure h) := by
  rw [configure_eq]
  refine (Act.prints_info _).starts_then fun events => ?_
  refine (starts_makeDirectory _ _).then fun k hon => ?_
  have hscript : k.hasFile (configureScript c) = (withDirectory c h).hasFile (configureScript c) := by
    rw [makeDirectory_ok hon, withDirectory_noting]
    rfl
  rw [← hscript]
  exact starts_configureThere c k

theorem starts_compile (c : BuildConfig) (h : Host) : (compile c).Starts h (commandsOf c .compile h) :=
  (Act.prints_info _).starts_then fun _ => (starts_perform ..).then_prints (Act.prints_success _)

/-- Installs the module in an environment. -/
def installIn (c : BuildConfig) (env : Dict Value) : Act Unit :=
  (installEditable c env).recover isBuildError fun _ => do
    Console.warning "Development install failed, trying regular install..."
    perform .install [python, "-m", "pip", "install", "."] c.source (some env)

theorem install_eq (c : BuildConfig) : install c = (do
    Console.info "Installing Python package..."
    get >>= fun h => do
      installIn c (sourceEnv c.source h)
      Console.success "Python package installed") := rfl

theorem endsIn_verdict (p : BuildPhase) (x : Command) (h : Host) :
    Act.endsIn isBuildError (verdict p x (x.outcome h)) = isReported (x.outcome h) := by
  cases hv : verdict p x (x.outcome h) with
  | error f => exact isBuildError_verdict hv
  | ok =>
    cases hr : x.outcome h with
    | error f => rw [hr] at hv; cases hv
    | ok e =>
      rw [hr, verdict] at hv
      split at hv
      case isTrue hsuccess => simp [Act.endsIn, isReported, hsuccess]
      case isFalse => cases hv

/-- The editable install ends with an error of the build if what comes of its command is reported as one. -/
theorem endsIn_installEditable (c : BuildConfig) (h : Host) :
    Act.endsIn isBuildError ((installEditable c (sourceEnv c.source h)).on h).1 =
      isReported ((editableCommand c h).outcome h) := by
  obtain ⟨events, -, hon⟩ :=
    on_perform .install [python, "-m", "pip", "install", "-e", "."] c.source (some (sourceEnv c.source h)) h
  rw [← editableCommand] at hon
  rw [installEditable, hon, endsIn_verdict]

theorem starts_installIn (c : BuildConfig) (h : Host) :
    (installIn c (sourceEnv c.source h)).Starts h (commandsOf c .install h) := by
  obtain ⟨events, hprint, hon⟩ :=
    on_perform .install [python, "-m", "pip", "install", "-e", "."] c.source (some (sourceEnv c.source h)) h
  rw [← installEditable, ← editableCommand] at hon
  have hcommands : commandsOf c .install h = [editableCommand c h] ++
      if Act.endsIn isBuildError ((installEditable c (sourceEnv c.source h)).on h).1 then [regularCommand c h]
      else [] := rfl
  rw [hcommands]
  refine Act.Starts.recover ?_ ?_ fun f k _ _ => ?_
  · rw [hon, Host.frame_left, Host.frame_noting]
  · rw [hon, Command.started_left, Host.started_noting h hprint]
  · exact (Act.prints_warning _).starts_then fun _ => starts_perform ..

theorem commandsOf_install_noting (c : BuildConfig) (h : Host) (events : List Event) :
    commandsOf c .install (Act.noting h events) = commandsOf c .install h := by
  have hedit : editableCommand c (Act.noting h events) = editableCommand c h := rfl
  have hregular : regularCommand c (Act.noting h events) = regularCommand c h := rfl
  rw [commandsOf, commandsOf, endsIn_installEditable, endsIn_installEditable, hedit, hregular]
  rw [Command.outcome_congr (Host.bare_noting h events)]

theorem starts_install (c : BuildConfig) (h : Host) : (install c).Starts h (commandsOf c .install h) := by
  rw [install_eq]
  refine (Act.prints_info _).starts_then fun events => Act.starts_get_bind ?_
  rw [← commandsOf_install_noting c h events]
  exact (starts_installIn c _).then_prints (Act.prints_success _)

/-- What a phase starts on a host. -/
theorem starts_phase (c : BuildConfig) (p : BuildPhase) (h : Host) : (phase c p).Starts h (commandsOf c p h) := by
  cases p with
  | clean => exact starts_clean c h
  | deps => exact starts_deps c h
  | submodules => exact starts_submodules c h
  | configure => exact starts_configure c h
  | compile => exact starts_compile c h
  | install => exact starts_install c h

end Build

end CiPipeline
